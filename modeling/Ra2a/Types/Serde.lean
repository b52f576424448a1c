import Mathlib.Data.String.Basic
import Ra2a.Lib.SortedMap
import Ra2a.Types.Json

/-!
# Serialization to JSON values

What serde and `serde_json` bring: the two traits, their implementations for
strings, booleans, vectors, values and metadata, and the rules by which a derived
implementation writes and reads the fields of a record.

A record is written field by field into a `serde_json::Map`, which is a
`BTreeMap`.  A field may be left out: an option that is `None`, a vector that is
empty, a flag that is `false`.  A derived reader takes an object, whose members it
looks up by name (a `Map` has no two of one name), or an array of the fields in
their order.  An option reads a missing member and `null` as `None`, so what is
written in an option must not be `null`.
-/

namespace Ra2a

open SortedMap

/-- `Serialize` and `Deserialize`, to and from a `serde_json::Value`. -/
class Serde (α : Type) where
  serialize : α → Json
  deserialize : Json → Option α

export Serde (serialize deserialize)

/-- What is written is read back. -/
class LawfulSerde (α : Type) [Serde α] : Prop where
  deserialize_serialize : ∀ a : α, deserialize (serialize a) = some a

/-- No value is written as `null`. -/
class NeverNull (α : Type) [Serde α] : Prop where
  ne_null : ∀ a : α, serialize a ≠ Json.null

attribute [simp] LawfulSerde.deserialize_serialize

/-! ### Values -/

instance : Serde String where
  serialize := .string
  deserialize
    | .string s => some s
    | _ => none

instance : Serde Bool where
  serialize := .bool
  deserialize
    | .bool b => some b
    | _ => none

instance : Serde Json where
  serialize := id
  deserialize := some

instance {α : Type} [Serde α] : Serde (List α) where
  serialize xs := .array (xs.map serialize)
  deserialize
    | .array js => js.mapM deserialize
    | _ => none

instance : Serde Metadata where
  serialize m := .object (entriesOf m)
  deserialize
    | .object ms => some (ms.foldl (fun m e => m.insert e.1 e.2) ∅)
    | _ => none

instance : LawfulSerde String := ⟨fun _ => rfl⟩

instance : LawfulSerde Bool := ⟨fun _ => rfl⟩

instance : LawfulSerde Json := ⟨fun _ => rfl⟩

instance {α : Type} [Serde α] [LawfulSerde α] : LawfulSerde (List α) where
  deserialize_serialize xs := by
    show (xs.map serialize).mapM deserialize = some xs
    induction xs with
    | nil => rfl
    | cons x xs ih => simp [ih]

instance : LawfulSerde Metadata := ⟨fun _ => congrArg some foldl_insert_entriesOf⟩

instance : NeverNull String := ⟨fun a h => by cases h⟩

instance : NeverNull Bool := ⟨fun a h => by cases h⟩

instance : NeverNull Metadata := ⟨fun a h => by cases h⟩

/-! ### Maps and integers -/

section Maps

variable {α : Type} [Serde α]

/-- `HashMap<String, T>`. -/
instance (priority := low) : Serde (Finmap fun _ : String => α) where
  serialize m := .object ((entriesOf m).map fun e => (e.1, serialize e.2))
  deserialize
    | .object ms => ms.foldlM (fun m e => (deserialize e.2).map (m.insert e.1)) ∅
    | _ => none

theorem foldlM_insert [LawfulSerde α] (es : List (String × α)) (m : Finmap fun _ : String => α) :
    (es.map fun e => (e.1, serialize e.2)).foldlM
      (fun m e => (deserialize e.2 : Option α).map (m.insert e.1)) m =
      some (es.foldl (fun m e => m.insert e.1 e.2) m) := by
  induction es generalizing m with
  | nil => rfl
  | cons e es ih =>
    rw [List.map_cons, List.foldlM_cons, LawfulSerde.deserialize_serialize, Option.map_some]
    exact ih (m.insert e.1 e.2)

instance (priority := low) [LawfulSerde α] : LawfulSerde (Finmap fun _ : String => α) where
  deserialize_serialize m := by
    show ((entriesOf m).map fun e => (e.1, serialize e.2)).foldlM _ ∅ = some m
    rw [foldlM_insert, foldl_insert_entriesOf]

end Maps

/-- The integer a number is (`as_i64` and `as_u64`). -/
def Number.toInt? : Number → Option ℤ
  | posInt n => some n.toNat
  | negInt n => some n.toInt
  | float _ => none

theorem Number.toInt?_ofInt64 (n : Int64) : (Number.ofInt64 n).toInt? = some n.toInt := by
  rw [Number.ofInt64]
  by_cases h : n < 0
  · rw [if_pos h, Number.toInt?]
  · have hle : 0 ≤ n := Int64.not_lt.mp h
    have hpos : 0 ≤ n.toInt := Int64.le_iff_toInt_le.mp hle
    rw [if_neg h, Number.toInt?, Int64.toNat_toUInt64_of_le hle, Int64.toNatClampNeg,
      Int.toNat_of_nonneg hpos]

/-- An `i32`: an integer that is in its range. -/
instance : Serde Int32 where
  serialize n := .number (.ofInt64 n.toInt64)
  deserialize
    | .number n => n.toInt?.bind fun i =>
      if -2 ^ 31 ≤ i ∧ i < 2 ^ 31 then some (Int32.ofInt i) else none
    | _ => none

instance : NeverNull Int32 := ⟨fun a h => by cases h⟩

instance : LawfulSerde Int32 where
  deserialize_serialize n := by
    have hle : -2 ^ 31 ≤ n.toInt := Int32.le_toInt n
    have hlt : n.toInt < 2 ^ 31 := Int32.toInt_lt n
    show (Number.ofInt64 n.toInt64).toInt?.bind _ = some n
    rw [Number.toInt?_ofInt64, Int32.toInt_toInt64, Option.bind_some, if_pos ⟨hle, hlt⟩,
      Int32.ofInt_toInt]

/-! ### Writing a record -/

section Fields

variable {α : Type} [Serde α]

def field (k : String) (a : α) : List (String × Json) := [(k, serialize a)]

/-- `skip_serializing_if = "Option::is_none"`. -/
def fieldUnlessNone (k : String) (o : Option α) : List (String × Json) :=
  match o with
  | some a => field k a
  | none => []

/-- `skip_serializing_if = "Vec::is_empty"`. -/
def fieldUnlessEmpty (k : String) (xs : List α) : List (String × Json) :=
  if xs.isEmpty then [] else field k xs

/-- `skip_serializing_if = "is_false"`. -/
def fieldUnlessFalse (k : String) (b : Bool) : List (String × Json) :=
  if b then field k b else []

/-- The object the fields are collected to. -/
def Json.ofFields (fields : List (String × Json)) : Json := .object (ofEntries fields)

/-! ### Reading a record -/

/-- The members a derived reader sees.  An array has the fields by place, and at
least as many as reach to the last one without a default. -/
def Json.members (least : ℕ) (names : List String) : Json → Option (List (String × Json))
  | .object ms => some ms
  | .array xs =>
    if least ≤ xs.length ∧ xs.length ≤ names.length then some (names.zip xs) else none
  | _ => none

/-- None of the fields is there twice, which is an error to a derived reader of a text. -/
def onceEach (names : List String) (ms : List (String × Json)) : Bool :=
  names.all fun name => (ms.filter fun m => m.1 = name).length ≤ 1

/-- A field that has to be there. -/
def readField (v : Option Json) : Option α := v.bind deserialize

/-- An option: a missing member and `null` are `None`. -/
def readOption (v : Option Json) : Option (Option α) :=
  match v with
  | none => some none
  | some .null => some none
  | some v => (deserialize v).map some

/-- A field with `#[serde(default)]`. -/
def readDefault (d : α) (v : Option Json) : Option α :=
  match v with
  | none => some d
  | some v => deserialize v

/-! ### Reading what was written -/

variable {k l : String} {a : α} {o : Option α} {xs : List α} {b : Bool}
  {fields : List (String × Json)} {least : ℕ} {names : List String}

@[simp] theorem members_ofFields :
    (Json.ofFields fields).members least names = some (ofEntries fields) :=
  rfl

@[simp] theorem find_field : find k (field l a) = if k = l then some (serialize a) else none :=
  find_singleton

@[simp] theorem find_fieldUnlessNone :
    find k (fieldUnlessNone l o) = if k = l then o.map serialize else none := by
  cases o with
  | none => simp [fieldUnlessNone]
  | some a => simp [fieldUnlessNone]

@[simp] theorem find_fieldUnlessEmpty :
    find k (fieldUnlessEmpty l xs) = if k = l ∧ xs ≠ [] then some (serialize xs) else none := by
  cases xs with
  | nil => simp [fieldUnlessEmpty]
  | cons x xs => simp [fieldUnlessEmpty]

@[simp] theorem find_fieldUnlessFalse :
    find k (fieldUnlessFalse l b) = if k = l ∧ b = true then some (serialize b) else none := by
  cases b with
  | false => simp [fieldUnlessFalse]
  | true => simp [fieldUnlessFalse]

@[simp] theorem readField_serialize [LawfulSerde α] : readField (some (serialize a)) = some a := by
  simp [readField]

/-- **An option that is left out when `None` is read back.** -/
@[simp] theorem readOption_map [LawfulSerde α] [NeverNull α] :
    readOption (o.map serialize) = some o := by
  cases o with
  | none => rfl
  | some a =>
    have hne : serialize a ≠ Json.null := NeverNull.ne_null a
    rw [Option.map_some, readOption]
    · simp
    · exact hne

theorem readDefault_serialize [LawfulSerde α] (d a : α) :
    readDefault d (some (serialize a)) = some a := by
  rw [readDefault, LawfulSerde.deserialize_serialize]

@[simp] theorem readDefault_unlessEmpty [LawfulSerde α] :
    readDefault ([] : List α) (if xs = [] then none else some (serialize xs)) = some xs := by
  by_cases h : xs = [] <;> simp [h, readDefault]

@[simp] theorem readDefault_unlessFalse :
    readDefault false (if b = true then some (serialize b) else none) = some b := by
  cases b <;> rfl

end Fields

end Ra2a
