import Ra2a.Types.Serde

/-!
# JSON text

The text form of JSON is another crate's: `JsonText` has its two functions, and
`Readable` says what is known of them at one value.  An error of the parser is
known by its text only, which `DecodeError` has.
-/

namespace Ra2a

/-- `serde_json::to_string` and `serde_json::from_str`, up to the value written
and read. -/
class JsonText where
  print : Json → Option String
  parse : String → Option Json

/-- What is printed is parsed back if it is nested no deeper than `limit`, and is
an error otherwise. -/
def JsonText.Readable [JsonText] (limit : ℕ) (j : Json) : Prop :=
  ∃ s, print j = some s ∧ parse s = if j.depth ≤ limit then some j else none

/-- How deep the parser of `serde_json` goes. -/
def recursionLimit : ℕ := 127

/-- What is printed is parsed back. -/
def JsonText.Lossless [JsonText] (j : Json) : Prop := ∃ s, print j = some s ∧ parse s = some j

theorem JsonText.Readable.lossless [JsonText] {limit : ℕ} {j : Json} (h : Readable limit j)
    (hdepth : j.depth ≤ limit) : Lossless j := by
  obtain ⟨s, hprint, hparse⟩ := h
  exact ⟨s, hprint, by rw [hparse, if_pos hdepth]⟩

/-- The text of an object is one line, from brace to brace, and is parsed back. -/
structure JsonText.Legible [JsonText] (j : Json) : Prop where
  readable : Readable recursionLimit j
  braces : ∀ s, print j = some s →
    '\n' ∉ s.toList ∧ s.toList.head? = some '\x7b' ∧ s.toList.getLast? = some '\x7d'

/-- `serde_json::to_string(..).ok()`. -/
def toText [JsonText] {α : Type} [Serde α] (a : α) : Option String := JsonText.print (serialize a)

/-- `serde_json::from_str(..).ok()`. -/
def fromText [JsonText] {α : Type} [Serde α] (s : String) : Option α :=
  (JsonText.parse s).bind deserialize

/-- The text of the error for a text that is no `α`. -/
class DecodeError (α : Type) where
  message : String → String

/-- `serde_json::from_str`. -/
def fromStr [JsonText] {α : Type} [Serde α] [DecodeError α] (s : String) : Except String α :=
  match fromText s with
  | some a => .ok a
  | none => .error (DecodeError.message α s)

section

variable [JsonText] {α : Type} [Serde α] [DecodeError α] {limit : ℕ} {j : Json} {s : String}

theorem fromStr_of_fromText {a : α} (h : fromText s = some a) : fromStr s = .ok a := by
  rw [fromStr, h]

theorem fromStr_of_none (h : (fromText s : Option α) = none) :
    (fromStr s : Except String α) = .error (DecodeError.message α s) := by
  rw [fromStr, h]

end

/-! ### Texts to run it with -/

/-- `n` arrays around `null`. -/
def nested : ℕ → Json
  | 0 => .null
  | n + 1 => .array [nested n]

theorem depth_nested (n : ℕ) : (nested n).depth = n := by
  induction n with
  | zero => rfl
  | succ n ih => rw [nested, Json.depth, Json.depthList, Json.depthList, ih, Nat.max_zero]

/-- The text of `nested`. -/
def nestedText (n : ℕ) : String :=
  String.ofList (List.replicate n '[') ++ "null" ++ String.ofList (List.replicate n ']')

/-- A stand-in for `serde_json` that knows some values and their texts. -/
@[reducible] def tableText (table : List (Json × String)) : JsonText where
  print j := (table.find? fun e => e.1 = j).map (·.2)
  parse s := (table.find? fun e => e.2 = s).bind fun e =>
    if e.1.depth ≤ recursionLimit then some e.1 else none

def braced (s : String) : String := "\x7b" ++ s ++ "\x7d"

theorem braces_braced {s : String} (h : '\n' ∉ s.toList) :
    '\n' ∉ (braced s).toList ∧ (braced s).toList.head? = some '\x7b' ∧
      (braced s).toList.getLast? = some '\x7d' := by
  refine ⟨?_, ?_, ?_⟩
  · simpa [braced] using h
  · simp [braced]
  · rw [braced, String.toList_append, List.getLast?_append]
    rfl

theorem find?_of_nodup {α β : Type} [DecidableEq β] {table : List α} {key : α → β}
    (hnodup : (table.map key).Nodup) {e : α} (he : e ∈ table) :
    table.find? (fun d => key d = key e) = some e := by
  induction table with
  | nil => cases he
  | cons d table ih =>
    rw [List.map_cons, List.nodup_cons] at hnodup
    rcases List.mem_cons.mp he with rfl | he
    · exact List.find?_cons_of_pos (by simp)
    · rw [List.find?_cons_of_neg, ih hnodup.2 he]
      intro h
      exact hnodup.1 (of_decide_eq_true h ▸ List.mem_map_of_mem he)

theorem print_tableText {table : List (Json × String)} (hjson : (table.map (·.1)).Nodup)
    {e : Json × String} (he : e ∈ table) : (tableText table).print e.1 = some e.2 :=
  congrArg (Option.map (·.2)) (find?_of_nodup hjson he)

theorem parse_tableText {table : List (Json × String)} (htext : (table.map (·.2)).Nodup)
    {e : Json × String} (he : e ∈ table) :
    (tableText table).parse e.2 = if e.1.depth ≤ recursionLimit then some e.1 else none :=
  congrArg (Option.bind · fun e => if e.1.depth ≤ recursionLimit then some e.1 else none)
    (find?_of_nodup htext he)

theorem legible_tableText {table : List (Json × String)} (hjson : (table.map (·.1)).Nodup)
    (htext : (table.map (·.2)).Nodup)
    (hbraces : ∀ e ∈ table, '\n' ∉ e.2.toList ∧ e.2.toList.head? = some '\x7b' ∧
      e.2.toList.getLast? = some '\x7d') {e : Json × String} (he : e ∈ table) :
    @JsonText.Legible (tableText table) e.1 := by
  have hprint := print_tableText hjson he
  refine @JsonText.Legible.mk (tableText table) e.1 ⟨e.2, hprint, ?_⟩ fun s hs => ?_
  · exact parse_tableText htext he
  · rw [hprint, Option.some.injEq] at hs
    exact hs ▸ hbraces e he

end Ra2a
