import Ra2a.Grpc.Proto
import Ra2a.Types.Values

/-!
# JSON values and protobuf values

The last functions of `grpc/convert.rs`.  A JSON value becomes a protobuf value with
each number its `f64`, and comes back as the value with these numbers
(`prostValueToJson_jsonToProstValue`).  The other way a value without a kind, or a
number that is not finite, is left out of the list or the struct it is in, and what
comes of it has no number but floats (`over_prostValueToJson`).
-/

namespace Ra2a

open SortedMap Proto

/-! ### Numbers -/

section Numbers

/-- `Number::as_f64`, to the bits. -/
def Number.asF64 [F64] : Number → Option UInt64
  | posInt n => some (F64.ofUInt64 n)
  | negInt n => some (F64.ofInt64 n)
  | float bits => some bits

/-- `Number::from_f64`. -/
def Number.fromF64 (bits : UInt64) : Option Number :=
  if isFinite bits then some (.float bits) else none

/-- A number `serde_json` can hold. -/
def Number.Finite : Number → Prop
  | float bits => isFinite bits = true
  | _ => True

/-- The number of the `f64` a number is. -/
def Number.toF64 [F64] (n : Number) : Number := .float (n.asF64.getD 0)

/-- A number that is a finite float. -/
def Number.IsF64 (n : Number) : Prop := ∃ bits, isFinite bits = true ∧ n = .float bits

theorem Number.fromF64_asF64 [F64] [LawfulF64] {n : Number} (h : n.Finite) :
    fromF64 (n.asF64.getD 0) = some n.toF64 := by
  have hfinite : isFinite (n.asF64.getD 0) = true := by
    cases n with
    | posInt n => exact LawfulF64.isFinite_ofUInt64 n
    | negInt n => exact LawfulF64.isFinite_ofInt64 n
    | float bits => exact h
  exact if_pos hfinite

theorem Number.IsF64.finite {n : Number} (h : n.IsF64) : n.Finite := by
  obtain ⟨bits, hbits, rfl⟩ := h
  exact hbits

theorem Number.IsF64.toF64 [F64] {n : Number} (h : n.IsF64) : n.toF64 = n := by
  obtain ⟨bits, -, rfl⟩ := h
  rfl

theorem Number.isF64_of_fromF64 {bits : UInt64} {n : Number} (h : fromF64 bits = some n) :
    n.IsF64 := by
  rw [fromF64] at h
  split_ifs at h with hbits
  exact ⟨bits, hbits, (Option.some.inj h).symm⟩

end Numbers

/-! ### The conversions -/

section

variable [F64]

mutual

/-- `json_to_prost_value`. -/
def jsonToProstValue : Json → Value
  | .null => .nullValue 0
  | .bool b => .boolValue b
  | .number n => .numberValue (n.asF64.getD 0)
  | .string s => .stringValue s
  | .array arr => .listValue (jsonsToProstValues arr)
  | .object map => .structValue (ofEntries (fieldsToProstValues map))

def jsonsToProstValues : List Json → List Value
  | [] => []
  | x :: xs => jsonToProstValue x :: jsonsToProstValues xs

def fieldsToProstValues : List (String × Json) → List (String × Value)
  | [] => []
  | (k, v) :: ms => (k, jsonToProstValue v) :: fieldsToProstValues ms

end

/-- `hashmap_to_struct`. -/
def hashmapToStruct (map : Metadata) : Struct :=
  ⟨ofEntries ((entriesOf map).map fun e => (e.1, jsonToProstValue e.2))⟩

end

mutual

/-- `prost_value_to_json`, with `struct_to_json` in its last branch. -/
def prostValueToJson : Value → Option Json
  | .unset => none
  | .nullValue _ => some .null
  | .boolValue b => some (.bool b)
  | .numberValue n => (Number.fromF64 n).map .number
  | .stringValue s => some (.string s)
  | .listValue values => some (.array (prostValuesToJsons values))
  | .structValue fields => some (.object (ofEntries (prostValuesToFields fields)))

/-- The values of a list that there is a JSON value for. -/
def prostValuesToJsons : List Value → List Json
  | [] => []
  | v :: vs => (prostValueToJson v).toList ++ prostValuesToJsons vs

def prostValuesToFields : List (String × Value) → List (String × Json)
  | [] => []
  | (k, v) :: fs => ((prostValueToJson v).map (Prod.mk k)).toList ++ prostValuesToFields fs

end

/-- `struct_to_hashmap`. -/
def structToHashmap (s : Struct) : Metadata :=
  (s.fields.filterMap fun e => (prostValueToJson e.2).map (Prod.mk e.1)).foldl
    (fun m e => m.insert e.1 e.2) ∅

/-- `struct_to_json`. -/
def structToJson (s : Struct) : Json :=
  .object (ofEntries (s.fields.filterMap fun e => (prostValueToJson e.2).map (Prod.mk e.1)))

/-! ### As maps over lists -/

section

variable [F64]

@[simp] theorem jsonToProstValue_array (xs : List Json) :
    jsonToProstValue (.array xs) = .listValue (xs.map jsonToProstValue) := by
  have hlist : ∀ xs, jsonsToProstValues xs = xs.map jsonToProstValue := by
    intro xs
    induction xs with
    | nil => rfl
    | cons x xs ih => rw [jsonsToProstValues, ih, List.map_cons]
  rw [jsonToProstValue, hlist]

@[simp] theorem jsonToProstValue_object (ms : List (String × Json)) :
    jsonToProstValue (.object ms) =
      .structValue (ofEntries (ms.map fun e => (e.1, jsonToProstValue e.2))) := by
  have hfields : ∀ ms, fieldsToProstValues ms = ms.map fun e => (e.1, jsonToProstValue e.2) := by
    intro ms
    induction ms with
    | nil => rfl
    | cons e ms ih => rw [fieldsToProstValues, ih, List.map_cons]
  rw [jsonToProstValue, hfields]

end

theorem filterMap_cons_toList {α β : Type} (f : α → Option β) (a : α) (as : List α) :
    (a :: as).filterMap f = (f a).toList ++ as.filterMap f := by
  rw [List.filterMap_cons]
  cases f a <;> rfl

@[simp] theorem prostValueToJson_listValue (vs : List Value) :
    prostValueToJson (.listValue vs) = some (.array (vs.filterMap prostValueToJson)) := by
  have hlist : ∀ vs, prostValuesToJsons vs = vs.filterMap prostValueToJson := by
    intro vs
    induction vs with
    | nil => rfl
    | cons v vs ih => rw [prostValuesToJsons, ih, filterMap_cons_toList]
  rw [prostValueToJson, hlist]

/-- The last branch is `struct_to_json`. -/
@[simp] theorem prostValueToJson_structValue (fs : List (String × Value)) :
    prostValueToJson (.structValue fs) = some (structToJson ⟨fs⟩) := by
  have hfields : ∀ fs, prostValuesToFields fs =
      fs.filterMap fun e => (prostValueToJson e.2).map (Prod.mk e.1) := by
    intro fs
    induction fs with
    | nil => rfl
    | cons e fs ih => rw [prostValuesToFields, ih, filterMap_cons_toList]
  rw [prostValueToJson, hfields, structToJson]

/-- The two ways out of a struct leave the same entries. -/
theorem structToJson_eq (s : Struct) :
    structToJson s = .object (entriesOf (structToHashmap s)) := by
  rw [structToJson, structToHashmap, entriesOf_foldl_insert]

/-! ### There and back -/

theorem filterMap_map_some {α β γ : Type} {f : α → β} {g : β → Option γ} {h : α → γ} {as : List α}
    (hg : ∀ a ∈ as, g (f a) = some (h a)) : (as.map f).filterMap g = as.map h := by
  rw [List.filterMap_map]
  exact (List.filterMap_congr hg).trans (congrFun List.filterMap_eq_map' as)

section

variable [F64] [LawfulF64]

/-- **A value comes back with its numbers as floats.** -/
theorem prostValueToJson_jsonToProstValue {j : Json} (h : j.Over Number.Finite) :
    prostValueToJson (jsonToProstValue j) = some (j.mapNumbers Number.toF64) := by
  induction h with
  | null => rfl
  | bool b => rfl
  | @number n hn =>
    show (Number.fromF64 _).map Json.number = _
    rw [Number.fromF64_asF64 hn]
    rfl
  | string s => rfl
  | @array xs _ ih =>
    rw [jsonToProstValue_array, prostValueToJson_listValue, filterMap_map_some ih,
      Json.mapNumbers_array]
  | @object ms hsorted _ ih =>
    have hfields : ∀ e ∈ ms, (prostValueToJson (jsonToProstValue e.2)).map (Prod.mk e.1) =
        some (e.1, e.2.mapNumbers Number.toF64) := fun e he => by rw [ih e he, Option.map_some]
    rw [jsonToProstValue_object, prostValueToJson_structValue, structToJson,
      ofEntries_of_sorted hsorted.map, filterMap_map_some hfields,
      ofEntries_of_sorted hsorted.map, Json.mapNumbers_object]

theorem structToHashmap_hashmapToStruct {m : Metadata}
    (h : ∀ e ∈ entriesOf m, e.2.Over Number.Finite) :
    structToHashmap (hashmapToStruct m) = mapValues (Json.mapNumbers Number.toF64) m := by
  have hfields : ∀ e ∈ entriesOf m, (prostValueToJson (jsonToProstValue e.2)).map (Prod.mk e.1) =
      some (e.1, e.2.mapNumbers Number.toF64) := fun e he => by
    rw [prostValueToJson_jsonToProstValue (h e he), Option.map_some]
  rw [structToHashmap, hashmapToStruct, ofEntries_of_sorted sorted_entriesOf.map,
    filterMap_map_some hfields]
  rfl

/-- **JSON comes back from protobuf with each number as its `f64`**: a value as a
whole, the entries of a map under the same keys, and whether a struct is read as a map
or as an object. -/
theorem json_comes_back :
    (∀ j : Json, j.Over Number.Finite →
        prostValueToJson (jsonToProstValue j) = some (j.mapNumbers Number.toF64)) ∧
      (∀ m : Metadata, (∀ e ∈ entriesOf m, e.2.Over Number.Finite) →
        (structToHashmap (hashmapToStruct m)).keys = m.keys) ∧
      ∀ s : Struct, structToJson s = .object (entriesOf (structToHashmap s)) := by
  refine ⟨fun j h => prostValueToJson_jsonToProstValue h, fun m h => ?_, structToJson_eq⟩
  rw [structToHashmap_hashmapToStruct h, keys_mapValues]

end

/-- An object with a number two levels down. -/
def countsJson : Json := .object [("counts", .array [.number (.posInt 1), .null])]

theorem countsJson_held : countsJson.Over Number.Finite := by
  refine .object (List.pairwise_singleton _ _) fun e he => ?_
  obtain rfl := List.mem_singleton.mp he
  refine .array fun x hx => ?_
  rcases List.mem_pair.mp hx with rfl | rfl
  · exact .number trivial
  · exact .null

theorem json_comes_back_counts :
    letI := oneFloat
    prostValueToJson (jsonToProstValue countsJson) =
        some (.object [("counts", .array [.number (.float 0x3FF0000000000000), .null])]) ∧
      (structToHashmap (hashmapToStruct ((∅ : Metadata).insert "usage" countsJson))).keys =
        ((∅ : Metadata).insert "usage" countsJson).keys := by
  let := oneFloat
  have := lawful_oneFloat
  refine ⟨json_comes_back.1 countsJson countsJson_held, json_comes_back.2.1 _ fun e he => ?_⟩
  rw [mem_entriesOf, Keyed.lookup_insert] at he
  split at he
  · exact Option.some.inj he ▸ countsJson_held
  · cases he

/-! ### What comes of a protobuf value -/

theorem over_object_of_entries {P : Number → Prop} {es : List (String × Json)}
    (h : ∀ e ∈ es, e.2.Over P) : (Json.object (ofEntries es)).Over P :=
  .object (sorted_ofEntries es) fun e he => h e (mem_ofEntries he)

/-- **What comes of a protobuf value has only floats.** -/
theorem over_prostValueToJson (v : Value) :
    ∀ {j : Json}, prostValueToJson v = some j → j.Over Number.IsF64 := by
  induction v using Value.induct with
  | unset =>
    intro j h
    cases h
  | nullValue n =>
    intro j h
    cases h
    exact .null
  | numberValue bits =>
    intro j h
    obtain ⟨n, hn, rfl⟩ := Option.map_eq_some_iff.mp h
    exact .number (Number.isF64_of_fromF64 hn)
  | stringValue s =>
    intro j h
    cases h
    exact .string s
  | boolValue b =>
    intro j h
    cases h
    exact .bool b
  | structValue fs ih =>
    intro j h
    rw [prostValueToJson_structValue, structToJson, Option.some.injEq] at h
    subst h
    refine over_object_of_entries fun e he => ?_
    obtain ⟨d, hd, he⟩ := List.mem_filterMap.mp he
    obtain ⟨x, hx, rfl⟩ := Option.map_eq_some_iff.mp he
    exact ih d hd hx
  | listValue vs ih =>
    intro j h
    rw [prostValueToJson_listValue, Option.some.injEq] at h
    subst h
    refine .array fun x hx => ?_
    obtain ⟨v, hv, hx⟩ := List.mem_filterMap.mp hx
    exact ih v hv hx

theorem over_structToHashmap (s : Struct) : ∀ e ∈ entriesOf (structToHashmap s),
    e.2.Over Number.IsF64 := by
  intro e he
  rw [mem_entriesOf, structToHashmap, lookup_foldl_insert] at he
  obtain ⟨d, hd, hmap⟩ := List.mem_filterMap.mp (mem_of_find he)
  obtain ⟨x, hx, hmk⟩ := Option.map_eq_some_iff.mp hmap
  obtain rfl : x = e.2 := congrArg Prod.snd hmk
  exact over_prostValueToJson d.2 hx

/-- Such a value is not changed by another conversion. -/
theorem mapNumbers_toF64_of_over [F64] {j : Json} (h : j.Over Number.IsF64) :
    j.mapNumbers Number.toF64 = j :=
  (h.mono fun _ hn => hn.toF64).mapNumbers_eq_self

end Ra2a
