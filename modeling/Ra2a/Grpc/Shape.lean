import Ra2a.Grpc.Value

/-!
# The shape of a converted value

`prost_value_to_json` gives nothing for a value without a kind and for a number
that is not finite.  That is how it says that a value cannot be converted.  In a
list or a struct it does not pass this on: it leaves the element out, and the
elements of a list after it move up.

So the JSON has the shape of the value exactly when every value inside it can be
converted (`keepsShape_iff`).
-/

namespace Ra2a

open SortedMap Proto

namespace Proto.Value

/-- A value a protobuf message can hold: the entries of a struct stand in the order
of their keys, one for a key. -/
inductive WellFormed : Value → Prop
  | unset : WellFormed .unset
  | nullValue (n : Int32) : WellFormed (.nullValue n)
  | numberValue (bits : UInt64) : WellFormed (.numberValue bits)
  | stringValue (s : String) : WellFormed (.stringValue s)
  | boolValue (b : Bool) : WellFormed (.boolValue b)
  | structValue {fs : List (String × Value)} : Sorted fs → (∀ e ∈ fs, WellFormed e.2) →
      WellFormed (.structValue fs)
  | listValue {vs : List Value} : (∀ v ∈ vs, WellFormed v) → WellFormed (.listValue vs)

/-- A value that has a kind and, if it is a number, a finite one. -/
def convertible : Value → Bool
  | .unset => false
  | .numberValue bits => isFinite bits
  | _ => true

/-- `u` is in the list or the struct that `v` is, at any depth. -/
inductive Inside (u : Value) : Value → Prop
  | element {vs : List Value} : u ∈ vs → Inside u (.listValue vs)
  | inElement {v : Value} {vs : List Value} : v ∈ vs → Inside u v → Inside u (.listValue vs)
  | field {e : String × Value} {fs : List (String × Value)} : e ∈ fs → e.2 = u →
      Inside u (.structValue fs)
  | inField {e : String × Value} {fs : List (String × Value)} : e ∈ fs → Inside u e.2 →
      Inside u (.structValue fs)

/-- `j` has the shape of `v`: a list has its elements at the same places, a struct its
entries under the same keys. -/
inductive Stands : Value → Json → Prop
  | nullValue (n : Int32) : Stands (.nullValue n) .null
  | boolValue (b : Bool) : Stands (.boolValue b) (.bool b)
  | numberValue (bits : UInt64) : Stands (.numberValue bits) (.number (.float bits))
  | stringValue (s : String) : Stands (.stringValue s) (.string s)
  | listValue {vs : List Value} {xs : List Json} : xs.length = vs.length →
      (∀ (i : ℕ) v x, vs[i]? = some v → xs[i]? = some x → Stands v x) →
      Stands (.listValue vs) (.array xs)
  | structValue {fs : List (String × Value)} {ms : List (String × Json)} :
      ms.map Prod.fst = fs.map Prod.fst →
      (∀ k v x, (k, v) ∈ fs → (k, x) ∈ ms → Stands v x) →
      Stands (.structValue fs) (.object ms)

/-- A value is converted exactly if it can be. -/
theorem isSome_prostValueToJson {v : Value} :
    (prostValueToJson v).isSome = v.convertible := by
  cases v with
  | numberValue bits =>
    rw [convertible, prostValueToJson, Number.fromF64]
    cases isFinite bits <;> rfl
  | _ => rfl

end Proto.Value

open Value

/-! ### Elements that are all converted -/

section

variable {α β : Type} {f : α → Option β} {as : List α}

/-- A list of elements that all convert is converted place by place. -/
theorem getElem?_filterMap (h : ∀ a ∈ as, (f a).isSome = true) (i : ℕ) :
    (as.filterMap f)[i]? = as[i]?.bind f := by
  induction as generalizing i with
  | nil => rfl
  | cons a as ih =>
    obtain ⟨b, hb⟩ := Option.isSome_iff_exists.mp (h a List.mem_cons_self)
    rw [List.filterMap_cons_some hb]
    cases i with
    | zero => exact hb.symm
    | succ i => exact ih (fun a ha => h a (List.mem_cons_of_mem _ ha)) i

theorem map_fst_filterMap {κ : Type} {es : List (κ × α)} (h : ∀ e ∈ es, (f e.2).isSome = true) :
    (es.filterMap fun e => (f e.2).map (Prod.mk e.1)).map Prod.fst = es.map Prod.fst := by
  induction es with
  | nil => rfl
  | cons e es ih =>
    obtain ⟨b, hb⟩ := Option.isSome_iff_exists.mp (h e List.mem_cons_self)
    simp only [List.filterMap_cons, hb, Option.map_some, List.map_cons]
    rw [ih fun e he => h e (List.mem_cons_of_mem _ he)]

end

/-! ### Values -/

/-- A value with all inside it convertible keeps its shape. -/
theorem stands_of_inside {v : Value} (hv : v.WellFormed)
    (hin : ∀ u, Inside u v → u.convertible = true) {j : Json} (hj : prostValueToJson v = some j) :
    Stands v j := by
  induction hv generalizing j with
  | unset => cases hj
  | nullValue n => cases hj; exact .nullValue n
  | numberValue bits =>
    obtain ⟨n, hn, rfl⟩ := Option.map_eq_some_iff.mp hj
    rw [Number.fromF64] at hn
    split at hn <;> cases hn
    exact .numberValue bits
  | stringValue s => cases hj; exact .stringValue s
  | boolValue b => cases hj; exact .boolValue b
  | @structValue fs hsorted _ ih =>
    have hall : ∀ e ∈ fs, (prostValueToJson e.2).isSome = true := fun e he => by
      rw [isSome_prostValueToJson, hin e.2 (.field he rfl)]
    rw [prostValueToJson_structValue, structToJson, ofEntries_of_sorted hsorted.filterMap,
      Option.some.injEq] at hj
    subst hj
    refine .structValue (map_fst_filterMap hall) fun k v x hv hx => ?_
    obtain ⟨e, he, hx⟩ := List.mem_filterMap.mp hx
    obtain ⟨y, hy, hyx⟩ := Option.map_eq_some_iff.mp hx
    cases hyx
    -- one entry for a key
    have hsame : e.2 = v := by
      rw [hsorted.mem_iff] at he hv
      exact Option.some.inj (he.symm.trans hv)
    rw [← hsame]
    exact ih e he (fun u hu => hin u (.inField he hu)) hy
  | @listValue vs _ ih =>
    have hall : ∀ v ∈ vs, (prostValueToJson v).isSome = true := fun v hv => by
      rw [isSome_prostValueToJson, hin v (.element hv)]
    rw [prostValueToJson_listValue, Option.some.injEq] at hj
    subst hj
    refine .listValue (List.filterMap_length_eq_length.mpr hall) fun i v x hv hx => ?_
    rw [getElem?_filterMap hall, hv] at hx
    have hmem : v ∈ vs := List.mem_of_getElem? hv
    exact ih v hmem (fun u hu => hin u (.inElement hmem hu)) hx

/-- What is inside a value that keeps its shape is convertible. -/
theorem convertible_of_stands {v : Value} (hv : v.WellFormed)
    (hstands : ∀ j, prostValueToJson v = some j → Stands v j) {u : Value} (hu : Inside u v) :
    u.convertible = true := by
  induction hv with
  | unset | nullValue | numberValue | stringValue | boolValue => cases hu
  | @structValue fs hsorted _ ih =>
    have hst := hstands _ (prostValueToJson_structValue fs)
    rw [structToJson, ofEntries_of_sorted hsorted.filterMap] at hst
    cases hst with
    | structValue hkeys hentries =>
      have hall : ∀ e ∈ fs, (prostValueToJson e.2).isSome = true := by
        intro e he
        have hkey : e.1 ∈ fs.map Prod.fst := List.mem_map_of_mem he
        rw [← hkeys] at hkey
        obtain ⟨m, hm, hme⟩ := List.mem_map.mp hkey
        obtain ⟨d, hd, hdm⟩ := List.mem_filterMap.mp hm
        obtain ⟨y, hy, rfl⟩ := Option.map_eq_some_iff.mp hdm
        have hsame : d.2 = e.2 := by
          rw [hsorted.mem_iff] at hd he
          rw [show d.1 = e.1 from hme] at hd
          exact Option.some.inj (hd.symm.trans he)
        rw [← hsame, hy]
        rfl
      cases hu with
      | @field e _ he hu =>
        rw [← hu, ← isSome_prostValueToJson]
        exact hall e he
      | @inField e _ he hu =>
        refine ih e he (fun j hj => hentries e.1 e.2 j he ?_) hu
        exact List.mem_filterMap.mpr ⟨e, he, by rw [hj]; rfl⟩
  | @listValue vs _ ih =>
    have hst := hstands _ (prostValueToJson_listValue vs)
    cases hst with
    | listValue hlen hat =>
      have hall : ∀ v ∈ vs, (prostValueToJson v).isSome = true :=
        List.filterMap_length_eq_length.mp hlen
      cases hu with
      | element hu =>
        rw [← isSome_prostValueToJson]
        exact hall _ hu
      | @inElement v _ hv hu =>
        refine ih v hv (fun j hj => ?_) hu
        obtain ⟨i, hi⟩ := List.mem_iff_getElem?.mp hv
        refine hat i v j hi ?_
        rw [getElem?_filterMap hall, hi]
        exact hj

/-- **A value is converted to JSON of its shape, or not at all, exactly when every value
inside it has a kind and, if it is a number, a finite one.** -/
theorem keepsShape_iff {v : Value} (hv : v.WellFormed) :
    (∀ j, prostValueToJson v = some j → Stands v j) ↔
      ∀ u, Inside u v → u.convertible = true :=
  ⟨fun h _ hu => convertible_of_stands hv h hu, fun h _ hj => stands_of_inside hv h hj⟩

/-- The bits of a number that is not one. -/
def nan : UInt64 := 0x7FF8000000000000

/-- A list with such a number between two texts. -/
def gappedList : Value := .listValue [.stringValue "a", .numberValue nan, .stringValue "b"]

/-- The second text stands where the number was. -/
theorem gappedList_shifted :
    prostValueToJson gappedList = some (.array [.string "a", .string "b"]) ∧
      ¬ ∀ j, prostValueToJson gappedList = some j → Stands gappedList j := by
  have hconv : prostValueToJson gappedList = some (.array [.string "a", .string "b"]) := by
    rw [gappedList, prostValueToJson_listValue]
    rfl
  refine ⟨hconv, fun h => ?_⟩
  cases h _ hconv with
  | listValue hlen => cases hlen

theorem keepsShape_iff_gapped :
    (∀ j, prostValueToJson gappedList = some j → Stands gappedList j) ↔
      ∀ u, Inside u gappedList → u.convertible = true := by
  refine keepsShape_iff (.listValue fun v hv => ?_)
  simp only [List.mem_cons, List.not_mem_nil, or_false] at hv
  rcases hv with rfl | rfl | rfl
  · exact .stringValue "a"
  · exact .numberValue nan
  · exact .stringValue "b"

end Ra2a
