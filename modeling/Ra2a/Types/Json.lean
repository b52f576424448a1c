import Mathlib.Data.Finmap

/-!
# JSON values

`serde_json::Value` and its number type.  An object is the list of its members
in the order they are written; `Json.get?` reads a member by name.  A number
keeps the three forms `serde_json::Number` has: an unsigned integer, a negative
integer, or a float, which is held by its bits and never computed with.

`Metadata` is the extension map carried by messages, parts, artifacts and
tasks.  It is a `HashMap`, so it is a finite map here and has no order.
-/

namespace Ra2a

/-- `serde_json::Number`. -/
inductive Number
  | posInt (n : UInt64)
  | negInt (n : Int64)
  | float (bits : UInt64)
  deriving DecidableEq

/-- An `i64` as a JSON number: only a negative one is kept signed. -/
def Number.ofInt64 (n : Int64) : Number :=
  if n < 0 then .negInt n else .posInt n.toUInt64

/-- `serde_json::Value`. -/
inductive Json
  | null
  | bool (b : Bool)
  | number (n : Number)
  | string (s : String)
  | array (xs : List Json)
  | object (fields : List (String × Json))

namespace Json

mutual

/-- Equality of values, member by member. -/
def beq : Json → Json → Bool
  | null, null => true
  | bool a, bool b => a = b
  | number a, number b => a = b
  | string a, string b => a = b
  | array xs, array ys => beqList xs ys
  | object xs, object ys => beqFields xs ys
  | _, _ => false

def beqList : List Json → List Json → Bool
  | [], [] => true
  | x :: xs, y :: ys => beq x y && beqList xs ys
  | _, _ => false

def beqFields : List (String × Json) → List (String × Json) → Bool
  | [], [] => true
  | (k, x) :: xs, (l, y) :: ys => decide (k = l) && (beq x y && beqFields xs ys)
  | _, _ => false

end

mutual

theorem beq_iff : ∀ a b : Json, beq a b = true ↔ a = b
  | null, b => by cases b <;> simp [beq]
  | bool _, b => by cases b <;> simp [beq]
  | number _, b => by cases b <;> simp [beq]
  | string _, b => by cases b <;> simp [beq]
  | array xs, b => by
    cases b with
    | array ys => simp [beq, beqList_iff xs ys]
    | _ => simp [beq]
  | object xs, b => by
    cases b with
    | object ys => simp [beq, beqFields_iff xs ys]
    | _ => simp [beq]

theorem beqList_iff : ∀ xs ys : List Json, beqList xs ys = true ↔ xs = ys
  | [], ys => by cases ys <;> simp [beqList]
  | x :: xs, ys => by
    cases ys with
    | nil => simp [beqList]
    | cons y ys => simp [beqList, beq_iff x y, beqList_iff xs ys]

theorem beqFields_iff : ∀ xs ys : List (String × Json), beqFields xs ys = true ↔ xs = ys
  | [], ys => by cases ys <;> simp [beqFields]
  | (k, x) :: xs, ys => by
    cases ys with
    | nil => simp [beqFields]
    | cons y ys =>
      obtain ⟨l, y⟩ := y
      simp [beqFields, beq_iff x y, beqFields_iff xs ys, and_assoc]

end

instance : DecidableEq Json := fun a b => decidable_of_iff (beq a b = true) (beq_iff a b)

mutual

/-- How deep the arrays and objects of a value are nested. -/
def depth : Json → ℕ
  | array xs => depthList xs + 1
  | object fields => depthFields fields + 1
  | _ => 0

def depthList : List Json → ℕ
  | [] => 0
  | x :: xs => max (depth x) (depthList xs)

def depthFields : List (String × Json) → ℕ
  | [] => 0
  | (_, x) :: xs => max (depth x) (depthFields xs)

end

/-- The member named `k` of an object (`Value::get`). -/
def get? (k : String) : Json → Option Json
  | object fields => fields.lookup k
  | _ => none

/-- `Value::as_str`. -/
def asStr? : Json → Option String
  | string s => some s
  | _ => none

end Json

/-- The extension metadata map (`HashMap<String, Value>`). -/
abbrev Metadata := Finmap fun _ : String => Json

end Ra2a
