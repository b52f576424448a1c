import Ra2a.Lib.SortedMap
import Ra2a.Server.CallContext
import Ra2a.Server.Rest

/-!
# Request metadata

The functions of `RequestMeta` in `server/middleware.rs` that make it of headers
and look something up in it.  A header whose value is no text is left out, and the
values of one name are kept in their order (`lookup_fromHeaderMap`).

The keys that are looked up are written in ASCII.
-/

namespace Ra2a

/-- `to_lowercase`, of a text in ASCII. -/
def lowerCase (s : String) : String := String.ofList (s.toList.map Char.toLower)

/-- The values of a name that are texts. -/
def HeaderMap.texts (headers : HeaderMap) (name : String) : List String :=
  headers.filterMap fun e => if e.1 = name then headerStr e.2 else none

namespace RequestMeta

/-- `RequestMeta::new`, of a map whose entries come in this order. -/
def new (src : List (String × List String)) : RequestMeta := ⟨SortedMap.rekey lowerCase src⟩

/-- One header more. -/
def push (m : RequestMeta) (e : String × List UInt8) : RequestMeta :=
  match headerStr e.2 with
  | some v => ⟨m.kv.insert e.1 ((m.kv.lookup e.1).getD [] ++ [v])⟩
  | none => m

/-- `RequestMeta::from_header_map`. -/
def fromHeaderMap (headers : HeaderMap) : RequestMeta := headers.foldl push ⟨∅⟩

/-- `RequestMeta::get`. -/
def get (m : RequestMeta) (key : String) : Option (List String) := m.kv.lookup (lowerCase key)

/-- `RequestMeta::set`. -/
def set (m : RequestMeta) (key value : String) : RequestMeta :=
  ⟨m.kv.insert (lowerCase key) [value]⟩

variable {m : RequestMeta} {headers : HeaderMap} {name : String}

theorem lookup_push (e : String × List UInt8) :
    ((m.push e).kv.lookup name).getD [] =
      (m.kv.lookup name).getD [] ++ HeaderMap.texts [e] name := by
  obtain ⟨key, value⟩ := e
  unfold push HeaderMap.texts
  cases hv : headerStr value with
  | none => simp [hv]
  | some v =>
    by_cases hkey : key = name
    · subst hkey
      simp [hv]
    · simp [hkey, Finmap.lookup_insert_of_ne _ (Ne.symm hkey)]

theorem lookup_foldl_push (es : List (String × List UInt8)) (m : RequestMeta) :
    ((es.foldl push m).kv.lookup name).getD [] =
      (m.kv.lookup name).getD [] ++ HeaderMap.texts es name := by
  induction es generalizing m with
  | nil => exact (List.append_nil _).symm
  | cons e es ih =>
    have htexts : HeaderMap.texts (e :: es) name =
        HeaderMap.texts [e] name ++ HeaderMap.texts es name := List.filterMap_append (l := [e])
    rw [List.foldl_cons, ih, lookup_push, htexts, List.append_assoc]

/-- **The values of a name are kept, in their order.** -/
theorem lookup_fromHeaderMap :
    ((fromHeaderMap headers).kv.lookup name).getD [] = headers.texts name := by
  rw [fromHeaderMap, lookup_foldl_push, Finmap.lookup_empty]
  rfl

theorem mem_push {e : String × List UInt8} (h : name ∈ (m.push e).kv) :
    e.1 = name ∨ name ∈ m.kv := by
  unfold push at h
  split at h
  · rcases Finmap.mem_insert.mp h with hname | hm
    · exact Or.inl hname.symm
    · exact Or.inr hm
  · exact Or.inr h

theorem mem_foldl_push {es : List (String × List UInt8)} {m : RequestMeta}
    (h : name ∈ (es.foldl push m).kv) : (∃ e ∈ es, e.1 = name) ∨ name ∈ m.kv := by
  induction es generalizing m with
  | nil => exact Or.inr h
  | cons e es ih =>
    rw [List.foldl_cons] at h
    rcases ih h with ⟨d, hd, hname⟩ | hpush
    · exact Or.inl ⟨d, List.mem_cons_of_mem e hd, hname⟩
    · rcases mem_push hpush with hname | hm
      · exact Or.inl ⟨e, List.mem_cons_self, hname⟩
      · exact Or.inr hm

/-- The keys are names of headers. -/
theorem mem_fromHeaderMap (h : name ∈ (fromHeaderMap headers).kv) : ∃ e ∈ headers, e.1 = name := by
  rcases mem_foldl_push h with hmem | hempty
  · exact hmem
  · exact absurd hempty Finmap.notMem_empty

/-- What the routers make of the headers of a request, with the name of a tenant or
without. -/
inductive OfRequest (headers : HeaderMap) : RequestMeta → Prop
  | base : OfRequest headers (.fromHeaderMap headers)
  | tenant (t : String) : OfRequest headers ((fromHeaderMap headers).set "x-a2a-tenant" t)

namespace OfRequest

theorem lookup (h : m.OfRequest headers) (hname : name ≠ "x-a2a-tenant") :
    (m.kv.lookup name).getD [] = headers.texts name := by
  cases h with
  | base => exact lookup_fromHeaderMap
  | tenant t =>
    have hkey : lowerCase "x-a2a-tenant" = "x-a2a-tenant" := by decide
    rw [set, hkey, Finmap.lookup_insert_of_ne _ hname]
    exact lookup_fromHeaderMap

/-- The names of headers are in lower case, and so are the keys. -/
theorem lowerCase_eq (h : m.OfRequest headers) (hlower : ∀ e ∈ headers, lowerCase e.1 = e.1)
    (hname : name ∈ m.kv) : lowerCase name = name := by
  have hmap : ∀ name ∈ (fromHeaderMap headers).kv, lowerCase name = name := by
    intro name hname
    obtain ⟨e, he, rfl⟩ := mem_fromHeaderMap hname
    exact hlower e he
  cases h with
  | base => exact hmap name hname
  | tenant t =>
    rcases Finmap.mem_insert.mp hname with rfl | hname
    · decide
    · exact hmap name hname

end OfRequest

/-! ### Names in several spellings -/

open SortedMap

variable {src : Finmap fun _ : String => List String} {order : List (String × List String)}

/-- All values of names in any spelling are there. -/
def KeepsValues (m : RequestMeta) (src : Finmap fun _ : String => List String) : Prop :=
  ∀ k vs n, src.lookup k = some vs → lowerCase k = lowerCase n → ∀ v ∈ vs, v ∈ (m.get n).getD []

/-- **`new` keeps all values, in any order, exactly if the spellings of a name have the same
values.** -/
theorem new_keeps_iff (src : Finmap fun _ : String => List String) :
    ((∀ order, Enumerates order src → (new order).KeepsValues src) ∧
      ∀ order order', Enumerates order src → Enumerates order' src → new order = new order') ↔
      ∀ k k' vs vs', src.lookup k = some vs → src.lookup k' = some vs' →
        lowerCase k = lowerCase k' → vs = vs' := by
  have hmk : (∀ order order', Enumerates order src → Enumerates order' src →
      new order = new order') ↔ SortedMap.Agree lowerCase src := by
    rw [← rekey_eq_iff]
    simp only [new, RequestMeta.mk.injEq]
  rw [hmk]
  constructor
  · exact And.right
  · intro hsrc
    refine ⟨fun order horder k vs n hk hn v hv => ?_, hsrc⟩
    have hlookup := SortedMap.Agree.lookup_rekey hsrc horder hk
    rw [RequestMeta.get, new, ← hn, hlookup]
    exact hv

/-- Two spellings of one name. -/
def twoSpellings : Finmap fun _ : String => List String :=
  ((∅ : Finmap fun _ : String => List String).insert "X-Id" ["1"]).insert "x-id" ["2"]

theorem enumerates_twoSpellings : Enumerates [("X-Id", ["1"]), ("x-id", ["2"])] twoSpellings where
  nodup := by decide
  mem_iff k vs := by
    rw [twoSpellings, Keyed.lookup_insert, Keyed.lookup_insert, Finmap.lookup_empty]
    by_cases h₁ : "x-id" = k
    · subst h₁
      simp [eq_comm]
    · by_cases h₂ : "X-Id" = k
      · subst h₂
        simp [eq_comm]
      · simp [h₁, h₂, Ne.symm h₁, Ne.symm h₂]

/-- One of them is lost, where the lines of a request keep both. -/
theorem new_loses_value :
    Enumerates [("X-Id", ["1"]), ("x-id", ["2"])] twoSpellings ∧
      ¬ (new [("X-Id", ["1"]), ("x-id", ["2"])]).KeepsValues twoSpellings ∧
      new [("X-Id", ["1"]), ("x-id", ["2"])] ≠ new [("x-id", ["2"]), ("X-Id", ["1"])] ∧
      (fromHeaderMap [("x-id", [49]), ("x-id", [50])]).get "X-Id" = some ["1", "2"] := by
  have hfirst : (new [("X-Id", ["1"]), ("x-id", ["2"])]).get "X-Id" = some ["2"] := by decide
  have hsecond : (new [("x-id", ["2"]), ("X-Id", ["1"])]).get "X-Id" = some ["1"] := by decide
  refine ⟨enumerates_twoSpellings, fun hkeeps => ?_, fun heq => ?_, by decide⟩
  · have hin := hkeeps "X-Id" ["1"] "X-Id" (by decide) rfl "1" List.mem_cons_self
    rw [hfirst] at hin
    exact absurd hin (by decide)
  · rw [heq, hsecond] at hfirst
    exact absurd hfirst (by decide)

end RequestMeta

/-! ### Extensions of a call -/

/-- The service parameter for the extensions that a client asks for. -/
def SVC_PARAM_EXTENSIONS : String := "A2A-Extensions"

namespace CallContext

variable (ctx : CallContext)

/-- `activate_extension`. -/
def activateExtension (uri : String) : CallContext :=
  { ctx with activatedExtensions := ctx.activatedExtensions ++ [uri] }

/-- `is_extension_active`. -/
def isExtensionActive (uri : String) : Bool := ctx.activatedExtensions.any (· = uri)

/-- `requested_extension_uris`. -/
def requestedExtensionUris : List String := (ctx.requestMeta.get SVC_PARAM_EXTENSIONS).getD []

end CallContext

end Ra2a
