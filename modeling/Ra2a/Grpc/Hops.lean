import Ra2a.Grpc.Convert

/-!
# Tasks over gRPC

A native task survives protobuf but for its numbers (`task_round_trip`).  A task that
came by protobuf survives another hop exactly when its timestamp does
(`second_hop_iff`): everything else that the decoder makes up for, be it an unset
status, an unset content, an unknown number or a value without a kind, is itself kept.
A timestamp that is no date becomes the empty text, and that becomes no timestamp.
-/

namespace Ra2a

open SortedMap Proto

/-! ### Timestamps -/

theorem i32TryFrom_of_lt {n : UInt32} (h : n.toNat < 2 ^ 31) : i32TryFrom n = some n.toInt32 :=
  if_pos h

theorem u32TryFrom_toInt32 {n : UInt32} (h : n.toNat < 2 ^ 31) : u32TryFrom n.toInt32 = some n := by
  have hle : (0 : Int32) ≤ n.toInt32 := by
    have hint : n.toInt32.toInt = n.toNat := by
      show n.toBitVec.toInt = n.toBitVec.toNat
      exact BitVec.toInt_eq_toNat_of_lt (by rw [UInt32.toNat_toBitVec]; omega)
    rw [Int32.le_iff_toInt_le, hint, Int32.toInt_zero]
    omega
  rw [u32TryFrom, if_pos hle, UInt32.toUInt32_toInt32]

section Chrono

variable [Chrono] [LawfulChrono]

/-- **A date's text is read again if it is read at all.** -/
theorem reread_toRfc3339 {s : Int64} {n : UInt32} {dt : DateTime}
    (hdate : Chrono.fromTimestamp s n = some dt) :
    reread (Chrono.toRfc3339 dt) = some (Chrono.toRfc3339 dt) ↔
      (Chrono.parseFromRfc3339 (Chrono.toRfc3339 dt)).isSome := by
  cases hparse : Chrono.parseFromRfc3339 (Chrono.toRfc3339 dt) with
  | none =>
    rw [reread, timestampOfText, hparse]
    simp
  | some dt' =>
    have hnanos := LawfulChrono.nanos_lt hdate
    have hlt : n.toNat < 2 ^ 31 := by omega
    obtain rfl := LawfulChrono.eq_of_parseFromRfc3339 hdate hparse
    have hdt := LawfulChrono.eq_of_fromTimestamp hdate
    rw [reread, timestampOfText, hparse]
    subst hdt
    simp [textOfTimestamp, i32TryFrom_of_lt hlt, u32TryFrom_toInt32 hlt, hdate]

theorem reread_of_canonical {ts : String} (h : Chrono.Canonical ts) : reread ts = some ts := by
  obtain ⟨secs, nanos, dt, hdate, rfl, hparse⟩ := h
  rw [reread_toRfc3339 hdate, hparse]
  rfl

theorem reread_empty : reread "" = none := by
  rw [reread, timestampOfText, LawfulChrono.parseFromRfc3339_empty]
  rfl

/-- A timestamp whose text comes back. -/
def Readable (ts : Timestamp) : Prop :=
  ∃ dt, Chrono.fromTimestamp ts.seconds ((u32TryFrom ts.nanos).getD 0) = some dt ∧
    (Chrono.parseFromRfc3339 (Chrono.toRfc3339 dt)).isSome

theorem reread_textOfTimestamp (ts : Timestamp) :
    reread (textOfTimestamp ts) = some (textOfTimestamp ts) ↔ Readable ts := by
  cases hdate : Chrono.fromTimestamp ts.seconds ((u32TryFrom ts.nanos).getD 0) with
  | none => simp [textOfTimestamp, Readable, hdate, reread_empty]
  | some dt => simp [textOfTimestamp, Readable, hdate, reread_toRfc3339 hdate]

end Chrono

/-! ### What the decoder gives -/

/-- A value whose numbers are floats. -/
abbrev Json.Floats (j : Json) : Prop := j.Over Number.IsF64

theorem allValues_structToHashmap (metadata : Option Struct) :
    AllValues Json.Floats (metadata.map structToHashmap) := by
  intro m hm
  obtain ⟨s, -, rfl⟩ := Option.map_eq_some_iff.mp hm
  exact over_structToHashmap s

theorem forall_mem_map {α β : Type} {P : β → Prop} {f : α → β} {as : List α} (h : ∀ a, P (f a)) :
    ∀ b ∈ as.map f, P b := by
  intro b hb
  obtain ⟨a, -, rfl⟩ := List.mem_map.mp hb
  exact h a

theorem Part.all_ofProto (p : Proto.Part) : (ofProto p).All Filled Json.Floats where
  filename := noneIfEmpty_ne p.filename
  mediaType := noneIfEmpty_ne p.mediaType
  data v hv := by
    have hcontent : PartContent.ofProto p.content = .data v := hv
    rcases hc : p.content with _ | _ | _ | _ | value <;>
      rw [hc, PartContent.ofProto] at hcontent <;> cases hcontent
    cases hvalue : prostValueToJson value with
    | none => exact .null
    | some j => exact over_prostValueToJson value hvalue
  metadata := allValues_structToHashmap p.metadata

theorem Artifact.all_ofProto (a : Proto.Artifact) : (ofProto a).All Filled Json.Floats where
  name := noneIfEmpty_ne a.name
  description := noneIfEmpty_ne a.description
  parts := forall_mem_map Part.all_ofProto
  metadata := allValues_structToHashmap a.metadata

theorem Message.all_ofProto [ProtoEnum Proto.Role] (m : Proto.Message) :
    (ofProto m).All Filled Json.Floats where
  contextId := noneIfEmpty_ne m.contextId
  taskId := noneIfEmpty_ne m.taskId
  parts := forall_mem_map Part.all_ofProto
  metadata := allValues_structToHashmap m.metadata

section Tasks

variable [ProtoEnum Proto.Role] [ProtoEnum Proto.TaskState] [Chrono]

theorem Task.all_ofProto (now : String) (t : Proto.Task) :
    (ofProto now t).All Filled Json.Floats where
  message m hm := by
    rcases hs : t.status with _ | status <;> rw [ofProto, hs] at hm
    · cases hm
    · obtain ⟨msg, -, rfl⟩ := Option.map_eq_some_iff.mp hm
      exact Message.all_ofProto msg
  artifacts := forall_mem_map Artifact.all_ofProto
  history := forall_mem_map Message.all_ofProto
  metadata := allValues_structToHashmap t.metadata

end Tasks

/-! ### Native tasks -/

/-- **A native task comes back but for its numbers.** -/
theorem task_round_trip [F64] [LawfulF64] [ProtoEnum Proto.Role] [LawfulProtoEnum Proto.Role]
    [ProtoEnum Proto.TaskState] [LawfulProtoEnum Proto.TaskState] [Chrono] [LawfulChrono] {t : Task}
    (h : t.All Filled Json.Held) (htimestamp : ∀ ts ∈ t.status.timestamp, Chrono.Canonical ts)
    (now : String) : Task.ofProto now t.toProto = t.mapJson Json.withF64 := by
  have hts : t.status.timestamp.bind reread = t.status.timestamp := by
    cases htime : t.status.timestamp with
    | none => rfl
    | some ts => exact reread_of_canonical (htimestamp ts htime)
  have hmap : (t.mapJson Json.withF64).status.timestamp = t.status.timestamp := rfl
  rw [Task.ofProto_toProto h, Task.reread, hmap, hts]
  rfl

/-- A task with a number in an artifact. -/
def sumTask (n : Number) : Task where
  id := "t1"
  contextId := "c1"
  status := ⟨.completed, none, some "2024-01-01T00:00:00+00:00"⟩
  artifacts := [⟨"a1", some "sum", none, [⟨.data (.number n), none, none, none⟩], none, []⟩]
  history := []
  metadata := none

theorem all_sumTask : (sumTask (.posInt 1)).All Filled Json.Held where
  message m hm := by cases hm
  artifacts a ha := by
    obtain rfl := List.mem_singleton.mp ha
    refine ⟨by decide, nofun, fun p hp => ?_, nofun⟩
    obtain rfl := List.mem_singleton.mp hp
    exact ⟨nofun, nofun, fun v hv => PartContent.data.inj hv ▸ .number trivial, nofun⟩
  history m hm := by cases hm
  metadata := nofun

theorem task_round_trip_sum :
    letI := oneFloat
    letI := roleNumbers
    letI := stateNumbers
    letI := twoDates
    Task.ofProto "2024-01-01T00:00:00+00:00" (sumTask (.posInt 1)).toProto =
      sumTask (.float 0x3FF0000000000000) := by
  let := oneFloat
  let := roleNumbers
  let := stateNumbers
  let := twoDates
  have := lawful_oneFloat
  have := lawful_roleNumbers
  have := lawful_stateNumbers
  have := lawful_twoDates
  refine (task_round_trip all_sumTask (fun ts hts => ?_) _).trans rfl
  obtain rfl := Option.some.inj hts
  exact canonical_2024

/-! ### Decoded tasks -/

section Tasks

variable [ProtoEnum Proto.Role] [ProtoEnum Proto.TaskState] [Chrono] [F64] [LawfulF64]
  [LawfulProtoEnum Proto.Role] [LawfulProtoEnum Proto.TaskState]

/-- What a second hop makes of a decoded task. -/
theorem Task.ofProto_toProto_ofProto (now now' : String) (p : Proto.Task) :
    ofProto now' (ofProto now p).toProto = (ofProto now p).reread := by
  have hall := all_ofProto now p
  have hheld : (ofProto now p).All Filled Json.Held :=
    hall.mono fun _ hj => Json.Over.mono (fun _ hn => hn.finite) hj
  have hsame : (ofProto now p).mapJson Json.withF64 = ofProto now p :=
    (hall.mono fun _ hj => mapNumbers_toF64_of_over hj).mapJson_eq_self
  rw [ofProto_toProto hheld, hsame]

end Tasks

theorem Task.reread_eq_self_iff [Chrono] {t : Task} :
    t.reread = t ↔ t.status.timestamp.bind Ra2a.reread = t.status.timestamp := by
  constructor
  · intro h
    exact congrArg (fun t => t.status.timestamp) h
  · intro h
    rw [reread, h]

/-- **A decoded task is stable exactly when its timestamp is**: there is none, or it is
of a date whose text is read again. -/
theorem second_hop_iff [F64] [LawfulF64] [ProtoEnum Proto.Role] [LawfulProtoEnum Proto.Role]
    [ProtoEnum Proto.TaskState] [LawfulProtoEnum Proto.TaskState] [Chrono] [LawfulChrono]
    {now : String} (hnow : Chrono.Canonical now) (now' : String) (p : Proto.Task) :
    Task.ofProto now' (Task.ofProto now p).toProto = Task.ofProto now p ↔
      ∀ status ∈ p.status, ∀ ts ∈ status.timestamp, Readable ts := by
  rw [Task.ofProto_toProto_ofProto, Task.reread_eq_self_iff]
  rcases hs : p.status with _ | ⟨state, message, _ | ts⟩ <;> simp only [Task.ofProto, hs]
  · simpa [TaskStatus.new] using reread_of_canonical hnow
  · simp [TaskStatus.ofProto]
  · simpa [TaskStatus.ofProto] using reread_textOfTimestamp ts

/-- A task of nothing but a status with a timestamp. -/
def stampedTask (ts : Timestamp) : Proto.Task where
  id := "t1"
  contextId := "c1"
  status := some ⟨3, none, some ts⟩
  artifacts := []
  history := []
  metadata := none

theorem second_hop_iff_2024 :
    letI := oneFloat
    letI := roleNumbers
    letI := stateNumbers
    letI := twoDates
    let n := Task.ofProto "2024-01-01T00:00:00+00:00" (stampedTask ⟨1704067200, 0⟩)
    Task.ofProto "2024-01-01T00:00:00+00:00" n.toProto = n := by
  let := oneFloat
  let := roleNumbers
  let := stateNumbers
  let := twoDates
  have := lawful_oneFloat
  have := lawful_roleNumbers
  have := lawful_stateNumbers
  have := lawful_twoDates
  refine (second_hop_iff canonical_2024 _ _).mpr fun status hstatus ts hts => ?_
  obtain rfl := Option.some.inj hstatus
  obtain rfl := Option.some.inj hts
  exact ⟨⟨1704067200, 0⟩, rfl, rfl⟩

/-- Seconds that are out of range become the empty text, which is lost on the second
hop. -/
theorem outOfRange_not_stable :
    letI := oneFloat
    letI := roleNumbers
    letI := stateNumbers
    letI := twoDates
    let n := Task.ofProto "2024-01-01T00:00:00+00:00" (stampedTask ⟨9223372036854775807, 0⟩)
    n.status.timestamp = some "" ∧
      (Task.ofProto "2024-01-01T00:00:00+00:00" n.toProto).status.timestamp = none ∧
      Task.ofProto "2024-01-01T00:00:00+00:00" n.toProto ≠ n := by
  refine ⟨rfl, rfl, fun h => ?_⟩
  exact absurd (congrArg (fun t => t.status.timestamp) h) nofun

end Ra2a
