import Mathlib.Data.String.Basic
import Ra2a.Lib.SortedMap
import Ra2a.Types.Task

/-!
# The values a record carries

A part may be any JSON value, and a part, a message, an artifact and a task have
metadata.  `mapJson` changes these values and nothing else, and `All` says what
holds of them, and of the optional strings that the records have.

`Json.Over P` is what `serde_json` can hold: the members of an object stand in the
order of their keys, one for a key.  The numbers are those that `P` admits.
-/

namespace Ra2a

open SortedMap

namespace Json

/-! ### Values -/

mutual

/-- The value with its numbers mapped. -/
def mapNumbers (f : Number → Number) : Json → Json
  | number n => number (f n)
  | array xs => array (mapNumbersList f xs)
  | object ms => object (mapNumbersFields f ms)
  | j => j

def mapNumbersList (f : Number → Number) : List Json → List Json
  | [] => []
  | x :: xs => mapNumbers f x :: mapNumbersList f xs

def mapNumbersFields (f : Number → Number) : List (String × Json) → List (String × Json)
  | [] => []
  | (k, x) :: ms => (k, mapNumbers f x) :: mapNumbersFields f ms

end

theorem mapNumbers_array (f : Number → Number) (xs : List Json) :
    mapNumbers f (array xs) = array (xs.map (mapNumbers f)) := by
  have hlist : ∀ xs, mapNumbersList f xs = xs.map (mapNumbers f) := by
    intro xs
    induction xs with
    | nil => rfl
    | cons x xs ih => rw [mapNumbersList, ih, List.map_cons]
  rw [mapNumbers, hlist]

theorem mapNumbers_object (f : Number → Number) (ms : List (String × Json)) :
    mapNumbers f (object ms) = object (ms.map fun e => (e.1, mapNumbers f e.2)) := by
  have hfields : ∀ ms, mapNumbersFields f ms = ms.map fun e => (e.1, mapNumbers f e.2) := by
    intro ms
    induction ms with
    | nil => rfl
    | cons e ms ih => rw [mapNumbersFields, ih, List.map_cons]
  rw [mapNumbers, hfields]

/-- A value `serde_json` can hold, with all its numbers admitted. -/
inductive Over (P : Number → Prop) : Json → Prop
  | null : Over P null
  | bool (b : Bool) : Over P (bool b)
  | number {n : Number} : P n → Over P (number n)
  | string (s : String) : Over P (string s)
  | array {xs : List Json} : (∀ x ∈ xs, Over P x) → Over P (array xs)
  | object {ms : List (String × Json)} : Sorted ms → (∀ e ∈ ms, Over P e.2) → Over P (object ms)

theorem Over.mono {P Q : Number → Prop} (hPQ : ∀ n, P n → Q n) {j : Json} (h : Over P j) :
    Over Q j := by
  induction h with
  | null => exact .null
  | bool b => exact .bool b
  | number hn => exact .number (hPQ _ hn)
  | string s => exact .string s
  | array _ ih => exact .array ih
  | object hsorted _ ih => exact .object hsorted ih

/-- Where no number is changed, nothing is. -/
theorem Over.mapNumbers_eq_self {f : Number → Number} {j : Json} (h : Over (fun n => f n = n) j) :
    j.mapNumbers f = j := by
  induction h with
  | null => rfl
  | bool b => rfl
  | number hn => rw [mapNumbers, hn]
  | string s => rfl
  | array _ ih => rw [mapNumbers_array, List.map_congr_left ih, List.map_id']
  | object _ _ ih =>
    have hmap : ∀ e ∈ _, (e.1, mapNumbers f e.2) = e := fun e he => by rw [ih e he]
    rw [mapNumbers_object, List.map_congr_left hmap, List.map_id']

end Json

/-! ### Records -/

section

variable (f : Json → Json)

def PartContent.mapJson : PartContent → PartContent
  | .data v => .data (f v)
  | content => content

def Part.mapJson (p : Part) : Part :=
  { p with content := p.content.mapJson f, metadata := p.metadata.map (mapValues f) }

def Message.mapJson (m : Message) : Message :=
  { m with parts := m.parts.map (Part.mapJson f), metadata := m.metadata.map (mapValues f) }

def Artifact.mapJson (a : Artifact) : Artifact :=
  { a with parts := a.parts.map (Part.mapJson f), metadata := a.metadata.map (mapValues f) }

def TaskStatus.mapJson (s : TaskStatus) : TaskStatus :=
  { s with message := s.message.map (Message.mapJson f) }

def Task.mapJson (t : Task) : Task :=
  { t with
    status := t.status.mapJson f
    artifacts := t.artifacts.map (Artifact.mapJson f)
    history := t.history.map (Message.mapJson f)
    metadata := t.metadata.map (mapValues f) }

end

section

/-- What holds of the values of metadata. -/
def AllValues (J : Json → Prop) (metadata : Option Metadata) : Prop :=
  ∀ m ∈ metadata, ∀ e ∈ entriesOf m, J e.2

variable (S : Option String → Prop) (J : Json → Prop)

structure Part.All (p : Part) : Prop where
  filename : S p.filename
  mediaType : S p.mediaType
  data : ∀ v, p.content = .data v → J v
  metadata : AllValues J p.metadata

structure Message.All (m : Message) : Prop where
  contextId : S m.contextId
  taskId : S m.taskId
  parts : ∀ p ∈ m.parts, p.All S J
  metadata : AllValues J m.metadata

structure Artifact.All (a : Artifact) : Prop where
  name : S a.name
  description : S a.description
  parts : ∀ p ∈ a.parts, p.All S J
  metadata : AllValues J a.metadata

structure Task.All (t : Task) : Prop where
  message : ∀ m ∈ t.status.message, m.All S J
  artifacts : ∀ a ∈ t.artifacts, a.All S J
  history : ∀ m ∈ t.history, m.All S J
  metadata : AllValues J t.metadata

end

section

variable {S : Option String → Prop} {J K : Json → Prop} (hJK : ∀ j, J j → K j)

include hJK

theorem AllValues.mono {metadata : Option Metadata} (h : AllValues J metadata) :
    AllValues K metadata :=
  fun m hm e he => hJK _ (h m hm e he)

theorem Part.All.mono {p : Part} (h : p.All S J) : p.All S K :=
  ⟨h.filename, h.mediaType, fun v hv => hJK v (h.data v hv), h.metadata.mono hJK⟩

theorem Message.All.mono {m : Message} (h : m.All S J) : m.All S K :=
  ⟨h.contextId, h.taskId, fun p hp => (h.parts p hp).mono hJK, h.metadata.mono hJK⟩

theorem Artifact.All.mono {a : Artifact} (h : a.All S J) : a.All S K :=
  ⟨h.name, h.description, fun p hp => (h.parts p hp).mono hJK, h.metadata.mono hJK⟩

theorem Task.All.mono {t : Task} (h : t.All S J) : t.All S K :=
  ⟨fun m hm => (h.message m hm).mono hJK, fun a ha => (h.artifacts a ha).mono hJK,
    fun m hm => (h.history m hm).mono hJK, h.metadata.mono hJK⟩

end

/-! ### Where no value is changed -/

section

variable {S : Option String → Prop} {f : Json → Json}

theorem mapValues_eq_self_of_all {metadata : Option Metadata}
    (h : AllValues (fun j => f j = j) metadata) : metadata.map (mapValues f) = metadata := by
  cases metadata with
  | none => rfl
  | some m => rw [Option.map_some, mapValues_eq_self (h m rfl)]

theorem map_eq_self {α : Type} {g : α → α} {as : List α} (h : ∀ a ∈ as, g a = a) :
    as.map g = as := by
  rw [List.map_congr_left h, List.map_id']

theorem Part.All.mapJson_eq_self {p : Part} (h : p.All S fun j => f j = j) : p.mapJson f = p := by
  have hcontent : p.content.mapJson f = p.content := by
    cases hc : p.content with
    | data v => rw [PartContent.mapJson, h.data v hc]
    | _ => rfl
  rw [mapJson, hcontent, mapValues_eq_self_of_all h.metadata]

theorem Message.All.mapJson_eq_self {m : Message} (h : m.All S fun j => f j = j) :
    m.mapJson f = m := by
  rw [mapJson, map_eq_self fun p hp => (h.parts p hp).mapJson_eq_self,
    mapValues_eq_self_of_all h.metadata]

theorem Artifact.All.mapJson_eq_self {a : Artifact} (h : a.All S fun j => f j = j) :
    a.mapJson f = a := by
  rw [mapJson, map_eq_self fun p hp => (h.parts p hp).mapJson_eq_self,
    mapValues_eq_self_of_all h.metadata]

theorem Task.All.mapJson_eq_self {t : Task} (h : t.All S fun j => f j = j) : t.mapJson f = t := by
  have hstatus : t.status.mapJson f = t.status := by
    rw [TaskStatus.mapJson]
    cases hm : t.status.message with
    | none => rw [Option.map_none, ← hm]
    | some m => rw [Option.map_some, (h.message m hm).mapJson_eq_self, ← hm]
  rw [mapJson, hstatus, map_eq_self fun a ha => (h.artifacts a ha).mapJson_eq_self,
    map_eq_self fun m hm => (h.history m hm).mapJson_eq_self, mapValues_eq_self_of_all h.metadata]

end

end Ra2a
