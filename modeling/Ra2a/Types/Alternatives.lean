import Ra2a.Types.Security
import Ra2a.Types.Wire

/-!
# One of several

Five types of the protocol are a `oneof` and are told by the name of a member:
`Part`, `StreamResponse`, `SendMessageResponse`, `SecurityScheme` and `OAuthFlow`.
None of their decoders counts the names.

Four of them collect the members to a map and look for their names in a fixed
order, so of two names the earlier one in that order decides.  The visitor of
`Part` goes through the members as they are written, so of two names the later one
decides, and the same members in another order are another part.
-/

namespace Ra2a

open OneOf SortedMap

variable [Base64]

/-! ### The four that look for names -/

/-- The names of a stream response, in the order they are looked for. -/
def Event.alternatives : List (String × (Json → Option Event)) :=
  [("task", fun v => (Serde.deserialize v).map .task),
    ("message", fun v => (Serde.deserialize v).map .message),
    ("statusUpdate", fun v => (Serde.deserialize v).map .statusUpdate),
    ("artifactUpdate", fun v => (Serde.deserialize v).map .artifactUpdate)]

def SendMessageResponse.alternatives : List (String × (Json → Option SendMessageResponse)) :=
  [("task", fun v => (Serde.deserialize v).map .task),
    ("message", fun v => (Serde.deserialize v).map .message)]

variable {ms : List (String × Json)}

theorem Event.deserialize_ofFields :
    Event.deserialize (.ofFields ms) = pick Event.alternatives ms := by
  rw [← choose_lookup]
  simp only [Json.ofFields, deserialize, alternatives, choose]
  cases (ofEntries ms).lookup "task" <;> cases (ofEntries ms).lookup "message" <;>
    cases (ofEntries ms).lookup "statusUpdate" <;>
    cases (ofEntries ms).lookup "artifactUpdate" <;> rfl

theorem SendMessageResponse.deserialize_ofFields :
    SendMessageResponse.deserialize (.ofFields ms) = pick SendMessageResponse.alternatives ms := by
  rw [← choose_lookup]
  simp only [Json.ofFields, deserialize, alternatives, choose]
  cases (ofEntries ms).lookup "task" <;> cases (ofEntries ms).lookup "message" <;> rfl

omit [Base64] in
theorem SecurityScheme.deserialize_ofFields :
    SecurityScheme.deserialize (.ofFields ms) = pick SecurityScheme.alternatives ms :=
  choose_lookup

omit [Base64] in
theorem OAuthFlow.deserialize_ofFields :
    OAuthFlow.deserialize (.ofFields ms) = pick OAuthFlow.alternatives ms :=
  choose_lookup

/-! ### The visitor of a part -/

/-- The names of the content of a part. -/
def Part.names : List String := ["text", "raw", "url", "data"]

/-- The other members of a part. -/
def Part.others : List String := ["filename", "mediaType", "metadata"]

namespace PartVisitor

/-- The visitor before the first member. -/
def start : PartVisitor := ⟨none, none, none, none⟩

/-- What a member is read as where it stands alone. -/
def alone (e : String × Json) : Option PartVisitor := start.visit e

/-- What is set later is set over what was set before. -/
def merge (p q : PartVisitor) : PartVisitor where
  content := q.content.or p.content
  metadata := q.metadata.or p.metadata
  filename := q.filename.or p.filename
  mediaType := q.mediaType.or p.mediaType

theorem visit_eq (p : PartVisitor) (e : String × Json) : p.visit e = (alone e).map p.merge := by
  obtain ⟨k, v⟩ := e
  simp only [alone, visit, start]
  split
  · cases (deserialize v : Option String) <;> simp [merge]
  · cases (deserialize v : Option String) with
    | none => rfl
    | some s => cases h : Base64.decode s <;> simp [merge, h]
  · cases (deserialize v : Option String) <;> simp [merge]
  · cases (deserialize v : Option Json) <;> simp [merge]
  · cases (deserialize v : Option String) <;> simp [merge]
  · cases (deserialize v : Option String) <;> simp [merge]
  · cases (deserialize v : Option Metadata) <;> simp [merge]
  · simp [merge]

/-- A member sets the field of its name and no other. -/
structure Sets (k : String) (q : PartVisitor) : Prop where
  content : q.content.isSome ↔ k ∈ Part.names
  metadata : q.metadata.isSome ↔ k = "metadata"
  filename : q.filename.isSome ↔ k = "filename"
  mediaType : q.mediaType.isSome ↔ k = "mediaType"

theorem sets_of_alone {e : String × Json} {q : PartVisitor} (h : alone e = some q) :
    Sets e.1 q := by
  obtain ⟨k, v⟩ := e
  simp only [alone, visit, start] at h
  split at h
  · obtain ⟨s, -, rfl⟩ := Option.map_eq_some_iff.mp h
    constructor <;> simp [Part.names]
  · obtain ⟨s, -, h⟩ := Option.bind_eq_some_iff.mp h
    obtain ⟨bs, -, h⟩ := Option.bind_eq_some_iff.mp h
    obtain rfl := Option.some.inj h
    constructor <;> simp [Part.names]
  · obtain ⟨s, -, rfl⟩ := Option.map_eq_some_iff.mp h
    constructor <;> simp [Part.names]
  · obtain ⟨s, -, rfl⟩ := Option.map_eq_some_iff.mp h
    constructor <;> simp [Part.names]
  · obtain ⟨s, -, rfl⟩ := Option.map_eq_some_iff.mp h
    constructor <;> simp [Part.names]
  · obtain ⟨s, -, rfl⟩ := Option.map_eq_some_iff.mp h
    constructor <;> simp [Part.names]
  · obtain ⟨s, -, rfl⟩ := Option.map_eq_some_iff.mp h
    constructor <;> simp [Part.names]
  · obtain rfl := Option.some.inj h
    constructor <;> simp_all [Part.names]

omit [Base64] in
/-- Two members that set different fields, or the same one alike, may change places. -/
theorem merge_right_comm {k l : String} {p q r : PartVisitor} (hq : Sets k q) (hr : Sets l r)
    (hcontent : k ∈ Part.names → l ∈ Part.names → q = r) (hsame : k = l → k ∈ Part.others → q = r) :
    (p.merge q).merge r = (p.merge r).merge q := by
  by_cases h : q = r
  · rw [h]
  · have hc : q.content = none ∨ r.content = none := by
      by_contra hcon
      rw [not_or, ← ne_eq, ← ne_eq, ← Option.isSome_iff_ne_none, ← Option.isSome_iff_ne_none,
        hq.content, hr.content] at hcon
      exact h (hcontent hcon.1 hcon.2)
    have hm : q.metadata = none ∨ r.metadata = none := by
      by_contra hcon
      rw [not_or, ← ne_eq, ← ne_eq, ← Option.isSome_iff_ne_none, ← Option.isSome_iff_ne_none,
        hq.metadata, hr.metadata] at hcon
      exact h (hsame (hcon.1.trans hcon.2.symm) (by rw [hcon.1]; decide))
    have hf : q.filename = none ∨ r.filename = none := by
      by_contra hcon
      rw [not_or, ← ne_eq, ← ne_eq, ← Option.isSome_iff_ne_none, ← Option.isSome_iff_ne_none,
        hq.filename, hr.filename] at hcon
      exact h (hsame (hcon.1.trans hcon.2.symm) (by rw [hcon.1]; decide))
    have ht : q.mediaType = none ∨ r.mediaType = none := by
      by_contra hcon
      rw [not_or, ← ne_eq, ← ne_eq, ← Option.isSome_iff_ne_none, ← Option.isSome_iff_ne_none,
        hq.mediaType, hr.mediaType] at hcon
      exact h (hsame (hcon.1.trans hcon.2.symm) (by rw [hcon.1]; decide))
    have hor : ∀ {α : Type} {a b c : Option α}, a = none ∨ b = none →
        b.or (a.or c) = a.or (b.or c) := by
      rintro α a b c (rfl | rfl) <;> simp
    simp only [merge, hor hc, hor hm, hor hf, hor ht]

/-! ### The loop over the members -/

def reads (ms : List (String × Json)) : Option PartVisitor := ms.foldlM visit start

theorem reads_concat (ms : List (String × Json)) (e : String × Json) :
    reads (ms ++ [e]) = (reads ms).bind fun p => (alone e).map p.merge := by
  rw [reads, List.foldlM_append]
  refine Option.bind_congr fun p _ => ?_
  rw [List.foldlM_cons, visit_eq]
  cases (alone e).map p.merge <;> rfl

theorem isSome_reads : (reads ms).isSome ↔ ∀ e ∈ ms, (alone e).isSome := by
  induction ms using List.reverseRecOn with
  | nil => simp [reads]
  | append_singleton ms e ih =>
    rw [reads_concat, List.forall_mem_append, ← ih]
    cases reads ms with
    | none => simp
    | some p => simp

/-- A part has content exactly when a member names some. -/
theorem isSome_content {p : PartVisitor} (h : reads ms = some p) :
    p.content.isSome ↔ named Part.names ms ≠ [] := by
  induction ms using List.reverseRecOn generalizing p with
  | nil =>
    obtain rfl := Option.some.inj h
    simp [named, start]
  | append_singleton ms e ih =>
    rw [reads_concat] at h
    obtain ⟨q, hq, h⟩ := Option.bind_eq_some_iff.mp h
    obtain ⟨r, hr, rfl⟩ := Option.map_eq_some_iff.mp h
    have hset := (sets_of_alone hr).content
    have hrest := ih hq
    by_cases hk : e.1 ∈ Part.names
    · simp [merge, named, hk, hset.mpr hk]
    · have hnone : r.content = none := by
        by_contra hcon
        exact hk (hset.mp (Option.isSome_iff_ne_none.mpr hcon))
      simp [merge, named, hk, hnone] at hrest ⊢
      exact hrest

/-- No choice of an order makes a difference where no two members differ about a
field. -/
theorem reads_perm {ms' : List (String × Json)} (hperm : ms'.Perm ms)
    (hone : (named Part.names ms).length ≤ 1)
    (hsame : ∀ e ∈ ms, ∀ f ∈ ms, e.1 = f.1 → e.1 ∈ Part.others → alone e = alone f) :
    reads ms' = reads ms := by
  rw [reads, reads, List.foldlM_eq_foldl, List.foldlM_eq_foldl]
  refine hperm.foldl_eq' (fun e he f hf o => ?_) _
  have he' := hperm.mem_iff.mp he
  have hf' := hperm.mem_iff.mp hf
  cases o with
  | none => rfl
  | some p =>
    show (p.visit e).bind (fun q => q.visit f) = (p.visit f).bind fun q => q.visit e
    simp only [visit_eq]
    cases hq : alone e with
    | none => cases alone f <;> rfl
    | some q =>
      cases hr : alone f with
      | none => rfl
      | some r =>
        refine congrArg some (merge_right_comm (sets_of_alone hq) (sets_of_alone hr) ?_ ?_)
        · intro hk hl
          have hef : e = f := eq_of_named hone (mem_named.mpr ⟨he', hk⟩) (mem_named.mpr ⟨hf', hl⟩)
          rw [hef, hr] at hq
          exact (Option.some.inj hq).symm
        · intro hk hl
          have halone := hsame e he' f hf' hk hl
          rw [hq, hr] at halone
          exact Option.some.inj halone

end PartVisitor

/-! ### When the decoders are strict -/

namespace Part

open PartVisitor

/-- The part a visitor that went through all members makes. -/
def ofVisitor (p : PartVisitor) : Option Part :=
  p.content.map fun content =>
    { content, metadata := p.metadata, filename := p.filename, mediaType := p.mediaType }

theorem deserialize_object : Part.deserialize (.object ms) = (reads ms).bind ofVisitor := by
  show (reads ms).bind _ = _
  refine Option.bind_congr fun p _ => ?_
  rw [ofVisitor]
  cases p.content <;> rfl

/-- A member cannot be read, or none is content, or one is and the other members
agree where they have the same name. -/
def Clear (ms : List (String × Json)) : Prop :=
  (∃ e ∈ ms, alone e = none) ∨ named Part.names ms = [] ∨
    (named Part.names ms).length = 1 ∧
      ∀ e ∈ ms, ∀ f ∈ ms, e.1 = f.1 → e.1 ∈ Part.others → alone e = alone f

omit [Base64] in
/-- Two options that are there under one condition are equal if they are where it
holds. -/
theorem eq_of_isSome_iff {α : Type} {a b : Option α} {P : Prop} (ha : a.isSome ↔ P)
    (hb : b.isSome ↔ P) (h : P → a = b) : a = b := by
  by_cases hP : P
  · exact h hP
  · rw [← ha, Option.not_isSome_iff_eq_none] at hP
    rw [← ha, hP] at hb
    rw [hP]
    cases b with
    | none => rfl
    | some b => simp at hb

omit [Base64] in
/-- Two members that set one field alike are read alike. -/
theorem eq_of_sets {k : String} {p p' q r : PartVisitor} {part : Part} (hq : Sets k q)
    (hr : Sets k r) (hk : k ∈ Part.others) (hp : ofVisitor (p.merge q) = some part)
    (hp' : ofVisitor (p'.merge r) = some part) : q = r := by
  obtain ⟨c, -, hc⟩ := Option.map_eq_some_iff.mp hp
  obtain ⟨d, -, hd⟩ := Option.map_eq_some_iff.mp hp'
  have hcd := hc.trans hd.symm
  simp only [merge, Part.mk.injEq] at hcd
  obtain ⟨-, hmeta, hfile, hmedia⟩ := hcd
  have hor : ∀ {α : Type} {a b x y : Option α}, a.isSome → b.isSome → a.or x = b.or y → a = b := by
    intro α a b x y ha hb h
    rwa [Option.or_of_isSome ha, Option.or_of_isSome hb] at h
  have hcontent : q.content = r.content := by
    refine eq_of_isSome_iff hq.content hr.content fun hname => ?_
    have hdisjoint : ∀ x ∈ Part.others, x ∉ Part.names := by decide
    exact absurd hname (hdisjoint k hk)
  have hmetadata : q.metadata = r.metadata :=
    eq_of_isSome_iff hq.metadata hr.metadata
      fun h => hor (hq.metadata.mpr h) (hr.metadata.mpr h) hmeta
  have hfilename : q.filename = r.filename :=
    eq_of_isSome_iff hq.filename hr.filename
      fun h => hor (hq.filename.mpr h) (hr.filename.mpr h) hfile
  have hmediaType : q.mediaType = r.mediaType :=
    eq_of_isSome_iff hq.mediaType hr.mediaType fun h =>
      hor (hq.mediaType.mpr h) (hr.mediaType.mpr h) hmedia
  obtain ⟨qc, qm, qf, qt⟩ := q
  obtain ⟨rc, rm, rf, rt⟩ := r
  exact congr (congr (congr (congrArg PartVisitor.mk hcontent) hmetadata) hfilename) hmediaType

/-- The member written last is set over the others. -/
theorem of_reads_concat {e : String × Json} {part : Part}
    (h : (reads (ms ++ [e])).bind ofVisitor = some part) :
    ∃ p q : PartVisitor, alone e = some q ∧ ofVisitor (p.merge q) = some part := by
  rw [reads_concat] at h
  obtain ⟨x, hx, h⟩ := Option.bind_eq_some_iff.mp h
  obtain ⟨p, -, hx⟩ := Option.bind_eq_some_iff.mp hx
  obtain ⟨q, hq, rfl⟩ := Option.map_eq_some_iff.mp hx
  exact ⟨p, q, hq, h⟩

theorem strict_iff :
    Strict Part.names (fun ms => Part.deserialize (.object ms)) ms ↔ Clear ms := by
  simp only [deserialize_object]
  constructor
  · intro h
    by_cases hread : ∃ e ∈ ms, alone e = none
    · exact Or.inl hread
    by_cases hnil : named Part.names ms = []
    · exact Or.inr (Or.inl hnil)
    have hall : (reads ms).isSome :=
      isSome_reads.mpr fun e he => Option.isSome_iff_ne_none.mpr fun hnone => hread ⟨e, he, hnone⟩
    obtain ⟨p, hp⟩ := Option.isSome_iff_exists.mp hall
    have hsome : ((reads ms).bind ofVisitor).isSome := by
      rw [hp, Option.bind_some, ofVisitor, Option.isSome_map]
      exact (isSome_content hp).mpr hnil
    refine Or.inr (Or.inr ⟨h.one hsome, fun e he f hf hef hk => ?_⟩)
    -- each of the two, written last, is the one that counts
    obtain ⟨rest, hperm⟩ := exists_perm_concat he
    obtain ⟨rest', hperm'⟩ := exists_perm_concat hf
    obtain ⟨part, hpart⟩ := Option.isSome_iff_exists.mp hsome
    obtain ⟨p₁, q, hq, hp₁⟩ := of_reads_concat ((h.order _ hperm).trans hpart)
    obtain ⟨p₂, r, hr, hp₂⟩ := of_reads_concat ((h.order _ hperm').trans hpart)
    have hsets : Sets e.1 r := by
      rw [hef]
      exact sets_of_alone hr
    rw [hq, hr, eq_of_sets (sets_of_alone hq) hsets hk hp₁ hp₂]
  · rintro (⟨e, he, hnone⟩ | hnil | ⟨hone, hsame⟩)
    · refine strict_of_refused fun ms' hperm => ?_
      have hreads : reads ms' = none := by
        by_contra hsome
        have hread := isSome_reads.mp (Option.isSome_iff_ne_none.mpr hsome) e (hperm.mem_iff.mpr he)
        rw [hnone] at hread
        cases hread
      rw [hreads]
      rfl
    · refine strict_of_refused fun ms' hperm => Option.bind_eq_none_iff.mpr fun p hp => ?_
      have hnil' : named Part.names ms' = [] := by
        rw [← List.length_eq_zero_iff, length_named_perm hperm, hnil]
        rfl
      have hcontent : p.content = none := by
        by_contra hsome
        exact (isSome_content hp).mp (Option.isSome_iff_ne_none.mpr hsome) hnil'
      rw [ofVisitor, hcontent]
      rfl
    · exact ⟨fun _ => hone, fun ms' hperm => by rw [reads_perm hperm hone.le hsame]⟩

end Part

/-- **The decoders accept only one alternative, in whatever order the members are
written, exactly where there is no choice to make**: no more than one member names
an alternative, or none of the members that could be chosen can be read.  For a part
the members that are not content have to agree as well, since of two of one name the
later one counts. -/
theorem decoders_strict_iff (ms : List (String × Json)) :
    (Strict Part.names (fun ms => Part.deserialize (.object ms)) ms ↔ Part.Clear ms) ∧
    (Strict (Event.alternatives.map Prod.fst) (fun ms => Event.deserialize (.ofFields ms)) ms ↔
      Single Event.alternatives ms) ∧
    (Strict (SendMessageResponse.alternatives.map Prod.fst)
        (fun ms => SendMessageResponse.deserialize (.ofFields ms)) ms ↔
      Single SendMessageResponse.alternatives ms) ∧
    (Strict (SecurityScheme.alternatives.map Prod.fst)
        (fun ms => SecurityScheme.deserialize (.ofFields ms)) ms ↔
      Single SecurityScheme.alternatives ms) ∧
    (Strict (OAuthFlow.alternatives.map Prod.fst)
        (fun ms => OAuthFlow.deserialize (.ofFields ms)) ms ↔
      Single OAuthFlow.alternatives ms) := by
  simp only [Event.deserialize_ofFields, SendMessageResponse.deserialize_ofFields,
    SecurityScheme.deserialize_ofFields, OAuthFlow.deserialize_ofFields]
  exact ⟨Part.strict_iff, strict_pick_iff, strict_pick_iff, strict_pick_iff, strict_pick_iff⟩

/-- A part that names two contents. -/
def twoContents : List (String × Json) := [("text", .string "hello"), ("url", .string "file")]

omit [Base64] in
/-- Both are accepted, and the one that is written later is the part. -/
theorem twoContents_not_strict :
    letI := byteChars
    Part.deserialize (.object twoContents) = some ⟨.url "file", none, none, none⟩ ∧
      Part.deserialize (.object twoContents.reverse) = some ⟨.text "hello", none, none, none⟩ ∧
      ¬ Strict Part.names (fun ms => Part.deserialize (.object ms)) twoContents := by
  let := byteChars
  have hurl : Part.deserialize (.object twoContents) = some ⟨.url "file", none, none, none⟩ := rfl
  refine ⟨hurl, rfl, fun h => ?_⟩
  have hone : (named Part.names twoContents).length = 1 := h.one (by rw [hurl]; rfl)
  exact absurd hone (by decide)

end Ra2a
