import Ra2a.Types.Text
import Ra2a.Types.Wire

/-!
# Tasks as rows

`TaskRow` of `server/task_store.rs`: a task spread over the eight columns of the
table.  The status message, the history, the artifacts and the metadata are JSON
text, each in a column of its own that is null when there is nothing to write.

`to_task` cannot fail.  A column that does not decode becomes `None` or an empty
vector, so a task comes back whole exactly when every text it is written as is
nested within the depth the parser of `serde_json` goes (`toTask_fromTask_iff`).
-/

namespace Ra2a

structure TaskRow where
  id : String
  contextId : String
  statusState : String
  statusMessage : Option String
  statusTimestamp : Option String
  history : Option String
  artifacts : Option String
  metadata : Option String
  deriving DecidableEq

/-- `string_to_task_state`. -/
def stringToTaskState (s : String) : TaskState :=
  (deserialize (Json.string s)).getD .unspecified

namespace TaskRow

variable [Base64] [JsonText]

/-- `TaskRow::from_task`. -/
def fromTask (task : Task) : TaskRow where
  id := task.id
  contextId := task.contextId
  statusState := task.status.state.asStr
  statusMessage := task.status.message.bind toText
  statusTimestamp := task.status.timestamp
  history := if task.history.isEmpty then none else toText task.history
  artifacts := if task.artifacts.isEmpty then none else toText task.artifacts
  metadata := (task.metadata.filter fun m => m ≠ ∅).bind toText

/-- `TaskRow::to_task`, at the clock reading `now`. -/
def toTask (row : TaskRow) (now : String) : Task :=
  let task := Task.new row.id row.contextId now
  let status := TaskStatus.new (stringToTaskState row.statusState) now
  let status := { status with timestamp := row.statusTimestamp }
  let status := match row.statusMessage with
    | some s => { status with message := fromText s }
    | none => status
  let task := { task with status := status }
  let task := match row.history with
    | some s => { task with history := (fromText s).getD [] }
    | none => task
  let task := match row.artifacts with
    | some s => { task with artifacts := (fromText s).getD [] }
    | none => task
  match row.metadata with
  | some s => { task with metadata := fromText s }
  | none => task

end TaskRow

/-! ### What a row keeps -/

/-- The task with empty metadata left out. -/
def Task.normal (t : Task) : Task := { t with metadata := t.metadata.filter fun m => m ≠ ∅ }

/-- The values a task is written as, one for each column of JSON that is not
null. -/
def Task.blobs [Base64] (t : Task) : List Json :=
  (t.status.message.map Serde.serialize).toList ++
    (if t.history = [] then [] else [Serde.serialize t.history]) ++
    (if t.artifacts = [] then [] else [Serde.serialize t.artifacts]) ++
    ((t.metadata.filter fun m => m ≠ ∅).map Serde.serialize).toList

theorem Task.forall_blobs [Base64] {t : Task} {P : Json → Prop} :
    (∀ j ∈ t.blobs, P j) ↔
      (∀ m, t.status.message = some m → P (Serde.serialize m)) ∧
      (t.history ≠ [] → P (Serde.serialize t.history)) ∧
      (t.artifacts ≠ [] → P (Serde.serialize t.artifacts)) ∧
      ∀ m, (t.metadata.filter fun m => m ≠ ∅) = some m → P (Serde.serialize m) := by
  simp only [Task.blobs, List.forall_mem_append, Option.mem_toList, Option.map_eq_some_iff,
    forall_exists_index, and_imp, forall_apply_eq_imp_iff₂, and_assoc]
  refine and_congr Iff.rfl (and_congr ?_ (and_congr ?_ Iff.rfl))
  · by_cases h : t.history = [] <;> simp [h]
  · by_cases h : t.artifacts = [] <;> simp [h]

theorem stringToTaskState_asStr (s : TaskState) : stringToTaskState s.asStr = s := by
  cases s <;> rfl

section Columns

variable [JsonText] {α : Type} [Serde α] {limit : ℕ}

/-- The value is nested no deeper than the parser goes. -/
def Fits (limit : ℕ) (a : α) : Prop := (serialize a).depth ≤ limit

instance (a : α) : Decidable (Fits limit a) := inferInstanceAs (Decidable (_ ≤ limit))

variable [LawfulSerde α]

theorem fromText_of_readable {a : α} (h : JsonText.Readable limit (serialize a)) :
    ∃ s, toText a = some s ∧ (fromText s : Option α) = if Fits limit a then some a else none := by
  obtain ⟨s, hprint, hparse⟩ := h
  refine ⟨s, hprint, ?_⟩
  rw [fromText, hparse]
  by_cases hfits : Fits limit a
  · have hle : (serialize a).depth ≤ limit := hfits
    rw [if_pos hfits, if_pos hle, Option.bind_some, LawfulSerde.deserialize_serialize]
  · have hle : ¬ (serialize a).depth ≤ limit := hfits
    rw [if_neg hfits, if_neg hle]
    rfl

/-- What comes back of an optional column. -/
theorem bind_fromText {o : Option α}
    (h : ∀ a, o = some a → JsonText.Readable limit (serialize a)) :
    ((o.bind toText).bind fromText : Option α) = o.filter fun a => Fits limit a := by
  cases o with
  | none => rfl
  | some a =>
    obtain ⟨s, hs, hread⟩ := fromText_of_readable (h a rfl)
    rw [Option.bind_some, hs, Option.bind_some, hread, Option.filter_some]
    by_cases hfits : Fits limit a <;> simp [hfits]

/-- What comes back of a vector's column. -/
theorem getD_fromText {xs : List α}
    (h : xs ≠ [] → JsonText.Readable limit (serialize xs)) :
    (((if xs.isEmpty then none else toText xs).bind fromText).getD [] : List α) =
      if Fits limit xs then xs else [] := by
  cases xs with
  | nil => simp
  | cons x xs =>
    obtain ⟨s, hs, hread⟩ := fromText_of_readable (h (List.cons_ne_nil x xs))
    rw [show (x :: xs).isEmpty = false from rfl, hs]
    by_cases hfits : Fits limit (x :: xs) <;> simp [hfits, hread]

end Columns

namespace TaskRow

variable [Base64] [LawfulBase64] [JsonText]

omit [LawfulBase64] in
/-- The task of a row, column by column. -/
theorem toTask_eq (row : TaskRow) (now : String) :
    row.toTask now =
      { id := row.id
        contextId := row.contextId
        status := ⟨stringToTaskState row.statusState, row.statusMessage.bind fromText,
          row.statusTimestamp⟩
        artifacts := (row.artifacts.bind fromText).getD []
        history := (row.history.bind fromText).getD []
        metadata := row.metadata.bind fromText } := by
  obtain ⟨id, contextId, state, message, timestamp, history, artifacts, metadata⟩ := row
  cases message <;> cases history <;> cases artifacts <;> cases metadata <;> rfl

/-- What comes back of a task. -/
theorem toTask_fromTask {limit : ℕ} {t : Task}
    (h : ∀ j ∈ t.blobs, JsonText.Readable limit j) (now : String) :
    (fromTask t).toTask now =
      { id := t.id
        contextId := t.contextId
        status := ⟨t.status.state, t.status.message.filter fun m => Fits limit m,
          t.status.timestamp⟩
        artifacts := if Fits limit t.artifacts then t.artifacts else []
        history := if Fits limit t.history then t.history else []
        metadata := (t.metadata.filter fun m => m ≠ ∅).filter fun m => Fits limit m } := by
  obtain ⟨hmsg, hhist, hart, hmeta⟩ := Task.forall_blobs.mp h
  rw [toTask_eq]
  simp only [fromTask, stringToTaskState_asStr, bind_fromText hmsg, getD_fromText hhist,
    getD_fromText hart, bind_fromText hmeta]

end TaskRow

/-- Filtering an option leaves it exactly when what is in it passes. -/
theorem filter_eq_self_iff {α : Type} {p : α → Bool} {o : Option α} :
    o.filter p = o ↔ ∀ a, o = some a → p a = true := by
  cases o with
  | none => simp
  | some a => by_cases h : p a <;> simp [h]

/-- Emptying a vector leaves it exactly when it passes or is empty. -/
theorem ite_eq_self_iff {α : Type} {p : Prop} [Decidable p] {xs : List α} :
    (if p then xs else []) = xs ↔ (xs ≠ [] → p) := by
  by_cases hp : p
  · simp [hp]
  · cases xs <;> simp [hp]

/-- **A task comes back whole exactly when every text it is written as is nested
no deeper than the parser goes.**  Otherwise what is in a deeper one is dropped. -/
theorem toTask_fromTask_iff [Base64] [LawfulBase64] [JsonText] {limit : ℕ} {t : Task}
    (h : ∀ j ∈ t.blobs, JsonText.Readable limit j) (now : String) :
    ((TaskRow.fromTask t).toTask now).normal = t.normal ↔ ∀ j ∈ t.blobs, j.depth ≤ limit := by
  rw [TaskRow.toTask_fromTask h, Task.forall_blobs]
  obtain ⟨id, contextId, ⟨state, message, timestamp⟩, artifacts, history, metadata⟩ := t
  let o := metadata.filter fun m => m ≠ ∅
  have hmeta : ((o.filter fun m => Fits limit m).filter fun m => m ≠ ∅) =
      o.filter fun m => Fits limit m := by
    rw [filter_eq_self_iff]
    intro m hm
    have hmem := Option.filter_eq_some_iff.mp (Option.filter_eq_some_iff.mp hm).1
    exact hmem.2
  simp only [Task.normal, Task.mk.injEq, TaskStatus.mk.injEq, true_and, and_true]
  rw [hmeta, filter_eq_self_iff, filter_eq_self_iff, ite_eq_self_iff, ite_eq_self_iff]
  simp only [decide_eq_true_eq]
  constructor
  · rintro ⟨hmsg, hart, hhist, hm⟩
    exact ⟨hmsg, hhist, hart, hm⟩
  · rintro ⟨hmsg, hhist, hart, hm⟩
    exact ⟨hmsg, hart, hhist, hm⟩

/-! ### A deep note -/

def noteJson (n : ℕ) : Json := .object [("note", nested n)]

theorem depth_noteJson (n : ℕ) : (noteJson n).depth = n + 1 := by
  rw [noteJson, Json.depth, Json.depthFields, Json.depthFields, depth_nested, Nat.max_zero]

/-- A task with nested metadata. -/
def noteTask (n : ℕ) : Task :=
  { Task.new "t1" "c1" "12:00" with metadata := some (Finmap.singleton "note" (nested n)) }

theorem note_ne_empty (n : ℕ) : (Finmap.singleton "note" (nested n) : Metadata) ≠ ∅ := by
  intro h
  have hl := congrArg (Finmap.lookup "note") h
  rw [Finmap.lookup_singleton_eq, Finmap.lookup_empty] at hl
  cases hl

theorem serialize_note [Base64] (n : ℕ) :
    Serde.serialize (Finmap.singleton "note" (nested n) : Metadata) = noteJson n := by
  have hentries : SortedMap.entriesOf (Finmap.singleton "note" (nested n) : Metadata) =
      [("note", nested n)] := by
    rw [SortedMap.entriesOf, Finmap.keys_singleton, Finset.sort_singleton]
    simp
  rw [noteJson, ← hentries]
  rfl

theorem blobs_noteTask [Base64] (n : ℕ) : (noteTask n).blobs = [noteJson n] := by
  simp only [noteTask, Task.blobs, Task.new, TaskStatus.submitted, TaskStatus.new,
    Option.filter_some, note_ne_empty, decide_true, ne_eq, not_false_eq_true, if_true,
    Option.map_some, Option.map_none, serialize_note]
  rfl

/-- The text of the metadata. -/
def noteString (n : ℕ) : String :=
  "\x7b\"note\":" ++ String.ofList (List.replicate n '[') ++ "null" ++
    String.ofList (List.replicate n ']') ++ "\x7d"

/-- What `serde_json` does with the metadata and with its text. -/
@[reducible] def noteText (limit n : ℕ) : JsonText where
  print j := if j = noteJson n then some (noteString n) else none
  parse s := if s = noteString n ∧ n + 1 ≤ limit then some (noteJson n) else none

theorem readable_noteText [Base64] (limit n : ℕ) :
    ∀ j ∈ (noteTask n).blobs, @JsonText.Readable (noteText limit n) limit j := by
  intro j hj
  rw [blobs_noteTask, List.mem_singleton] at hj
  subst hj
  refine ⟨noteString n, if_pos rfl, ?_⟩
  rw [depth_noteJson]
  show (if noteString n = noteString n ∧ n + 1 ≤ limit then _ else _) = _
  by_cases hle : n + 1 ≤ limit <;> simp [hle]

theorem toTask_fromTask_iff_note :
    letI := byteChars
    letI := noteText 127 1
    ((TaskRow.fromTask (noteTask 1)).toTask "12:01").normal = (noteTask 1).normal := by
  let := byteChars
  let := noteText 127 1
  have := lawful_byteChars
  refine (toTask_fromTask_iff (readable_noteText 127 1) "12:01").mpr fun j hj => ?_
  rw [blobs_noteTask, List.mem_singleton] at hj
  rw [hj, depth_noteJson]
  decide

/-- Metadata nested a level too deep is gone when the task is read. -/
theorem deepNote_dropped :
    letI := byteChars
    letI := noteText 127 127
    (∀ j ∈ (noteTask 127).blobs, JsonText.Readable 127 j) ∧
      ((TaskRow.fromTask (noteTask 127)).toTask "12:01").normal ≠ (noteTask 127).normal := by
  let := byteChars
  let := noteText 127 127
  have := lawful_byteChars
  have hread := readable_noteText 127 127
  refine ⟨hread, fun h => ?_⟩
  have hdeep : ¬ Fits 127 (Finmap.singleton "note" (nested 127) : Metadata) := by
    rw [Fits, show serialize _ = noteJson 127 from serialize_note 127, depth_noteJson]
    decide
  have hmeta := congrArg Task.metadata h
  rw [TaskRow.toTask_fromTask hread] at hmeta
  simp only [Task.normal, noteTask, Option.filter_some, note_ne_empty, hdeep, ne_eq,
    not_false_eq_true, decide_true, decide_false, if_true, Bool.false_eq_true, if_false,
    Option.filter_none] at hmeta
  cases hmeta

end Ra2a
