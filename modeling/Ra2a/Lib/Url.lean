import Mathlib.Data.Bool.AllAny
import Ra2a.Lib.Utf8

/-!
# Reading a URL

What RFC 3986 makes of the text of a URL after its authority: the path ends at the
first `?` or `#`, its segments are what the slashes part, and the segments `.` and
`..` are taken away.  A segment is percent-decoded, and a character that no URL has
stands for its bytes.  A query is a form: pairs between `&`, with a plus sign for a
blank.

Decoding shortens what it changes, so a text that is written into a URL as it is
comes back exactly when there is nothing in it to decode (`decodeSegment_eq_some_iff`,
`formDecode_eq_self_iff`).
-/

namespace Url

open Utf8

/-! ### Percent-decoding -/

/-- The value of a hexadecimal digit. -/
def hexDigit? (c : Char) : Option ℕ :=
  if '0' ≤ c ∧ c ≤ '9' then some (c.toNat - '0'.toNat)
  else if 'a' ≤ c ∧ c ≤ 'f' then some (c.toNat - 'a'.toNat + 10)
  else if 'A' ≤ c ∧ c ≤ 'F' then some (c.toNat - 'A'.toNat + 10)
  else none

/-- The byte that two digits stand for. -/
def hexByte? (h l : Char) : Option UInt8 :=
  (hexDigit? h).bind fun a => (hexDigit? l).map fun b => UInt8.ofNat (16 * a + b)

/-- The byte that a text begins with the escape of, and what is after the escape. -/
def escape? : List Char → Option (UInt8 × List Char)
  | p :: h :: l :: cs => if p = '%' then (hexByte? h l).map fun b => (b, cs) else none
  | _ => none

theorem escape?_eq_some {cs cs' : List Char} {b : UInt8} (h : escape? cs = some (b, cs')) :
    ∃ h l, cs = '%' :: h :: l :: cs' ∧ hexByte? h l = some b := by
  rcases cs with _ | ⟨p, _ | ⟨x, _ | ⟨y, cs⟩⟩⟩
  · cases h
  · cases h
  · cases h
  · rw [escape?] at h
    split_ifs at h with hp
    obtain ⟨b', hb, heq⟩ := Option.map_eq_some_iff.mp h
    cases heq
    exact ⟨x, y, by rw [hp], hb⟩

/-- The bytes of a text with its escapes decoded. -/
def percentDecode : List Char → List UInt8
  | [] => []
  | c :: cs =>
    match _h : escape? (c :: cs) with
    | some (b, cs') => b :: percentDecode cs'
    | none => String.utf8EncodeChar c ++ percentDecode cs
termination_by cs => cs.length
decreasing_by
  · obtain ⟨h, l, hcs, -⟩ := escape?_eq_some _h
    rw [hcs]
    simp only [List.length_cons]
    omega
  · exact Nat.lt_succ_self _

/-- A text has an escape in it. -/
def hasEscape : List Char → Bool
  | [] => false
  | c :: cs => (escape? (c :: cs)).isSome || hasEscape cs

/-- A segment of a path, decoded: no text, if its bytes are none. -/
def decodeSegment (cs : List Char) : Option (List Char) := fromUtf8 (percentDecode cs)

variable {b : UInt8} {c : Char} {as cs cs' ds : List Char}

theorem percentDecode_of_some (h : escape? cs = some (b, cs')) :
    percentDecode cs = b :: percentDecode cs' := by
  obtain ⟨x, y, rfl, -⟩ := escape?_eq_some h
  rw [percentDecode]
  split
  · rename_i heq
    rw [h] at heq
    cases heq
    rfl
  · rename_i heq
    rw [h] at heq
    cases heq

theorem percentDecode_of_none (h : escape? (c :: cs) = none) :
    percentDecode (c :: cs) = String.utf8EncodeChar c ++ percentDecode cs := by
  rw [percentDecode]
  split
  · rename_i heq
    rw [h] at heq
    cases heq
  · rfl

/-- A text without an escape is its bytes. -/
theorem percentDecode_eq_encode (h : hasEscape cs = false) : percentDecode cs = encode cs := by
  induction cs with
  | nil =>
    rw [percentDecode]
    rfl
  | cons c cs ih =>
    rw [hasEscape, Bool.or_eq_false_iff, Option.isSome_eq_false_iff, Option.isNone_iff_eq_none] at h
    rw [percentDecode_of_none h.1, ih h.2, encode_cons]

theorem length_scan_percentDecode_le (cs : List Char) :
    (scan (percentDecode cs)).length ≤ cs.length := by
  induction hn : cs.length using Nat.strongRecOn generalizing cs with
  | ind n ih =>
    subst hn
    rcases cs with _ | ⟨c, cs⟩
    · rw [percentDecode]
      exact Nat.le_refl 0
    · cases hesc : escape? (c :: cs) with
      | none =>
        have hrec := ih cs.length (Nat.lt_succ_self _) cs rfl
        rw [percentDecode_of_none hesc, scan_append, List.length_cons, List.length_cons]
        omega
      | some e =>
        obtain ⟨b, cs'⟩ := e
        obtain ⟨x, y, heq, -⟩ := escape?_eq_some hesc
        have hlen : (c :: cs).length = cs'.length + 3 := congrArg List.length heq
        have hrec := ih cs'.length (by omega) cs' rfl
        have hcons := length_scan_cons_le b (percentDecode cs')
        rw [percentDecode_of_some hesc]
        omega

/-- **What is decoded gets shorter.** -/
theorem length_scan_percentDecode_lt (h : hasEscape cs = true) :
    (scan (percentDecode cs)).length < cs.length := by
  induction cs with
  | nil => cases h
  | cons c cs ih =>
    cases hesc : escape? (c :: cs) with
    | none =>
      rw [hasEscape, hesc, Option.isSome_none, Bool.false_or] at h
      have hrec := ih h
      rw [percentDecode_of_none hesc, scan_append, List.length_cons, List.length_cons]
      omega
    | some e =>
      obtain ⟨b, cs'⟩ := e
      obtain ⟨x, y, heq, -⟩ := escape?_eq_some hesc
      have hlen : (c :: cs).length = cs'.length + 3 := congrArg List.length heq
      have hrec := length_scan_percentDecode_le cs'
      have hcons := length_scan_cons_le b (percentDecode cs')
      rw [percentDecode_of_some hesc]
      omega

theorem decodeSegment_of_not_hasEscape (h : hasEscape cs = false) : decodeSegment cs = some cs := by
  rw [decodeSegment, percentDecode_eq_encode h, fromUtf8_encode]

/-- **A segment comes back as it is, or shorter.** -/
theorem decodeSegment_cases (h : decodeSegment cs = some ds) :
    ds = cs ∧ hasEscape cs = false ∨ ds.length < cs.length := by
  cases hesc : hasEscape cs with
  | false =>
    rw [decodeSegment_of_not_hasEscape hesc] at h
    exact Or.inl ⟨(Option.some.inj h).symm, rfl⟩
  | true =>
    have hlen := length_of_fromUtf8 h
    have hlt := length_scan_percentDecode_lt hesc
    exact Or.inr (by omega)

theorem length_of_decodeSegment (h : decodeSegment cs = some ds) : ds.length ≤ cs.length := by
  rcases decodeSegment_cases h with ⟨rfl, -⟩ | hlt
  · exact Nat.le_refl _
  · omega

/-- What is there does not vanish. -/
theorem decodeSegment_ne_nil (h : decodeSegment cs = some ds) (hcs : cs ≠ []) : ds ≠ [] := by
  rintro rfl
  have hbytes : percentDecode cs = [] := (encode_of_fromUtf8 h).symm
  cases cs with
  | nil => exact hcs rfl
  | cons c cs =>
    cases hesc : escape? (c :: cs) with
    | none =>
      rw [percentDecode_of_none hesc, List.append_eq_nil_iff] at hbytes
      exact String.utf8EncodeChar_ne_nil hbytes.1
    | some e =>
      rw [percentDecode_of_some hesc] at hbytes
      cases hbytes

theorem decodeSegment_eq_some_iff : decodeSegment cs = some cs ↔ hasEscape cs = false := by
  refine ⟨fun h => ?_, decodeSegment_of_not_hasEscape⟩
  rcases decodeSegment_cases h with h | h
  · exact h.2
  · exact absurd h (Nat.lt_irrefl _)

/-! ### Forms -/

/-- A plus sign for a blank. -/
def plusToSpace (c : Char) : Char := if c = '+' then ' ' else c

def formDecode (s : List Char) : List Char := fromUtf8Lossy (percentDecode (s.map plusToSpace))

theorem length_formDecode_le (s : List Char) : (formDecode s).length ≤ s.length := by
  have hle := length_scan_percentDecode_le (s.map plusToSpace)
  rw [List.length_map] at hle
  rw [formDecode, fromUtf8Lossy, List.length_map]
  exact hle

theorem hexDigit?_plusToSpace (c : Char) : hexDigit? (plusToSpace c) = hexDigit? c := by
  rw [plusToSpace]
  split_ifs with h
  · subst h
    decide
  · rfl

theorem isSome_escape?_map (cs : List Char) :
    (escape? (cs.map plusToSpace)).isSome = (escape? cs).isSome := by
  have hpercent : ∀ c, plusToSpace c = '%' ↔ c = '%' := by
    intro c
    rw [plusToSpace]
    split_ifs with h
    · subst h
      decide
    · exact Iff.rfl
  rcases cs with _ | ⟨p, _ | ⟨x, _ | ⟨y, cs⟩⟩⟩
  · rfl
  · rfl
  · rfl
  · simp only [List.map_cons, escape?, hpercent, hexByte?, hexDigit?_plusToSpace]
    split_ifs with hp
    · rw [Option.isSome_map, Option.isSome_map]
    · rfl

theorem hasEscape_map (cs : List Char) : hasEscape (cs.map plusToSpace) = hasEscape cs := by
  induction cs with
  | nil => rfl
  | cons c cs ih =>
    have hhead := isSome_escape?_map (c :: cs)
    rw [List.map_cons] at hhead
    rw [List.map_cons, hasEscape, hasEscape, ih, hhead]

/-- **A value comes back exactly when it has no plus sign and no escape.** -/
theorem formDecode_eq_self_iff {s : List Char} :
    formDecode s = s ↔ '+' ∉ s ∧ hasEscape s = false := by
  have hmap : '+' ∉ s ↔ s.map plusToSpace = s := by
    constructor
    · intro hplus
      have hid : ∀ c ∈ s, plusToSpace c = c :=
        fun c hc => if_neg fun (heq : c = '+') => hplus (heq ▸ hc)
      rw [List.map_congr_left hid, List.map_id']
    · intro h hplus
      rw [← h] at hplus
      obtain ⟨c, -, hc⟩ := List.mem_map.mp hplus
      rw [plusToSpace] at hc
      split_ifs at hc with hplus
      · cases hc
      · exact hplus hc
  cases hesc : hasEscape s with
  | true =>
    have hlt := length_scan_percentDecode_lt ((hasEscape_map s).trans hesc)
    rw [List.length_map] at hlt
    refine ⟨fun h => ?_, fun h => by cases h.2⟩
    have hlen := congrArg List.length h
    rw [formDecode, fromUtf8Lossy, List.length_map] at hlen
    omega
  | false =>
    have hdecode : formDecode s = s.map plusToSpace := by
      rw [formDecode, percentDecode_eq_encode ((hasEscape_map s).trans hesc), fromUtf8Lossy_encode]
    rw [hdecode, hmap]
    exact ⟨fun h => ⟨h, rfl⟩, fun h => h.1⟩

/-- What a piece of a form says: a key and its value. -/
def formPair (piece : List Char) : List Char × List Char :=
  (formDecode (piece.takeWhile (· ≠ '=')), formDecode ((piece.dropWhile (· ≠ '=')).drop 1))

/-- The pairs of a form. -/
def formParse (query : List Char) : List (List Char × List Char) :=
  ((query.splitOn '&').filter (· ≠ [])).map formPair

/-- Pairs written one after the other, as they are. -/
def formText : List (List Char × List Char) → List Char
  | [] => []
  | [e] => e.1 ++ '=' :: e.2
  | e :: es => e.1 ++ '=' :: e.2 ++ '&' :: formText es

/-- The text before the fragment. -/
def beforeFragment (s : List Char) : List Char := s.takeWhile (· ≠ '#')

/-- A key that is written as it is, and read as it is. -/
structure IsKey (k : List Char) : Prop where
  plain : ∀ c ∈ k, c ≠ '=' ∧ c ≠ '&' ∧ c ≠ '#' ∧ c ≠ '+' ∧ c ≠ '%'

instance : DecidablePred IsKey := fun k =>
  decidable_of_iff (k.all fun c => c ≠ '=' ∧ c ≠ '&' ∧ c ≠ '#' ∧ c ≠ '+' ∧ c ≠ '%')
    ⟨fun h => ⟨List.all_iff_forall_prop.mp h⟩, fun h => List.all_iff_forall_prop.mpr h.plain⟩

variable {k v : List Char} {e : List Char × List Char} {es : List (List Char × List Char)}

theorem hasEscape_eq_false (h : '%' ∉ cs) : hasEscape cs = false := by
  induction cs with
  | nil => rfl
  | cons c cs ih =>
    rw [List.mem_cons, not_or] at h
    have hnone : escape? (c :: cs) = none := by
      rcases cs with _ | ⟨x, _ | ⟨y, cs⟩⟩
      · rfl
      · rfl
      · exact if_neg (Ne.symm h.1)
    rw [hasEscape, hnone, ih h.2]
    rfl

theorem IsKey.formDecode (h : IsKey k) : formDecode k = k :=
  formDecode_eq_self_iff.mpr ⟨fun hmem => (h.plain _ hmem).2.2.2.1 rfl,
    hasEscape_eq_false fun hmem => (h.plain _ hmem).2.2.2.2 rfl⟩

theorem formPair_of_key (h : IsKey k) (v : List Char) :
    formPair (k ++ '=' :: v) = (k, Url.formDecode v) := by
  have hall : ∀ c ∈ k, decide (c ≠ '=') = true := fun c hc => decide_eq_true (h.plain c hc).1
  rw [formPair, List.takeWhile_append_of_pos hall, List.dropWhile_append_of_pos hall]
  simp [h.formDecode]

/-- The first pair of a form whose first piece has no separator in it. -/
theorem formParse_cons (h : IsKey k) (hv : '&' ∉ v) (rest : List Char) :
    formParse (k ++ '=' :: v ++ '&' :: rest) = (k, Url.formDecode v) :: formParse rest := by
  have hpiece : '&' ∉ k ++ '=' :: v := by
    simp only [List.mem_append, List.mem_cons, not_or]
    exact ⟨fun hk => (h.plain _ hk).2.1 rfl, by decide, hv⟩
  rw [formParse, List.splitOn_append_cons_self_of_not_mem hpiece, List.filter_cons_of_pos (by simp),
    List.map_cons, formPair_of_key h]
  rfl

theorem formParse_single (h : IsKey k) (hv : '&' ∉ v) :
    formParse (k ++ '=' :: v) = [(k, Url.formDecode v)] := by
  have hpiece : '&' ∉ k ++ '=' :: v := by
    simp only [List.mem_append, List.mem_cons, not_or]
    exact ⟨fun hk => (h.plain _ hk).2.1 rfl, by decide, hv⟩
  rw [formParse, List.splitOn_eq_singleton hpiece, List.filter_cons_of_pos (by simp),
    List.filter_nil, List.map_cons, List.map_nil, formPair_of_key h]

theorem beforeFragment_append (h : '#' ∉ as) (cs : List Char) :
    beforeFragment (as ++ cs) = as ++ beforeFragment cs :=
  List.takeWhile_append_of_pos fun _ hc => decide_eq_true fun heq => h (heq ▸ hc)

/-- A pair that is written well is read, whatever comes after it. -/
theorem formParse_formText_cons (he : IsKey e.1) (hamp : '&' ∉ e.2) (hhash : '#' ∉ e.2)
    (es : List (List Char × List Char)) :
    formParse (beforeFragment (formText (e :: es))) =
      (e.1, Url.formDecode e.2) :: formParse (beforeFragment (formText es)) := by
  have hpiece : '#' ∉ e.1 ++ '=' :: e.2 := by
    simp only [List.mem_append, List.mem_cons, not_or]
    exact ⟨fun hk => (he.plain _ hk).2.2.1 rfl, by decide, hhash⟩
  cases es with
  | nil =>
    have hwhole : beforeFragment (e.1 ++ '=' :: e.2) = e.1 ++ '=' :: e.2 := by
      have happ := beforeFragment_append hpiece []
      rwa [List.append_nil, show beforeFragment [] = [] from rfl, List.append_nil] at happ
    show formParse (beforeFragment (e.1 ++ '=' :: e.2)) = _
    rw [hwhole, formParse_single he hamp]
    rfl
  | cons e' es =>
    have hsep : beforeFragment ('&' :: formText (e' :: es)) =
        '&' :: beforeFragment (formText (e' :: es)) := rfl
    rw [formText, beforeFragment_append hpiece, hsep, formParse_cons he hamp]
    nofun

theorem exists_first_separator (h : '&' ∈ v ∨ '#' ∈ v) :
    ∃ v₁ s v₂, v = v₁ ++ s :: v₂ ∧ (s = '&' ∨ s = '#') ∧ '&' ∉ v₁ ∧ '#' ∉ v₁ := by
  induction v with
  | nil => rcases h with h | h <;> cases h
  | cons c v ih =>
    by_cases hc : c = '&' ∨ c = '#'
    · exact ⟨[], c, v, rfl, hc, List.not_mem_nil, List.not_mem_nil⟩
    · rw [not_or] at hc
      have hlater : '&' ∈ v ∨ '#' ∈ v := by
        rcases h with h | h
        · exact Or.inl ((List.mem_cons.mp h).resolve_left fun heq => hc.1 heq.symm)
        · exact Or.inr ((List.mem_cons.mp h).resolve_left fun heq => hc.2 heq.symm)
      obtain ⟨v₁, s, v₂, rfl, hs, hamp, hhash⟩ := ih hlater
      refine ⟨c :: v₁, s, v₂, rfl, hs, ?_, ?_⟩
      · rw [List.mem_cons, not_or]
        exact ⟨Ne.symm hc.1, hamp⟩
      · rw [List.mem_cons, not_or]
        exact ⟨Ne.symm hc.2, hhash⟩

/-- **A value with a separator in it is read short.** -/
theorem formParse_formText_cut (he : IsKey e.1) (hbad : '&' ∈ e.2 ∨ '#' ∈ e.2)
    (es : List (List Char × List Char)) :
    ∃ w more, formParse (beforeFragment (formText (e :: es))) = (e.1, w) :: more ∧
      w.length < e.2.length := by
  obtain ⟨k, v⟩ := e
  -- the value is read up to its first separator
  obtain ⟨v₁, s, v₂, rfl, hs, hamp, hhash⟩ := exists_first_separator hbad
  have hlen := length_formDecode_le v₁
  have hpiece : '#' ∉ k ++ '=' :: v₁ := by
    simp only [List.mem_append, List.mem_cons, not_or]
    exact ⟨fun hk => (he.plain _ hk).2.2.1 rfl, by decide, hhash⟩
  have hrest : ∃ rest, formText ((k, v₁ ++ s :: v₂) :: es) = k ++ '=' :: v₁ ++ s :: rest := by
    cases es with
    | nil => exact ⟨v₂, by simp [formText]⟩
    | cons e' es => exact ⟨v₂ ++ '&' :: formText (e' :: es), by simp [formText]⟩
  obtain ⟨rest, hrest⟩ := hrest
  rw [hrest, beforeFragment_append hpiece]
  rcases hs with rfl | rfl
  · have hsep : beforeFragment ('&' :: rest) = '&' :: beforeFragment rest := rfl
    refine ⟨Url.formDecode v₁, formParse (beforeFragment rest), ?_, ?_⟩
    · rw [hsep, formParse_cons he hamp]
    · simp only [List.length_append, List.length_cons]
      omega
  · have hcut : beforeFragment ('#' :: rest) = [] := rfl
    refine ⟨Url.formDecode v₁, [], ?_, ?_⟩
    · rw [hcut, List.append_nil, formParse_single he hamp]
    · simp only [List.length_append, List.length_cons]
      omega

/-- A value that is written as it is, and read as it is. -/
structure IsValue (v : List Char) : Prop where
  plain : '&' ∉ v ∧ '#' ∉ v ∧ '+' ∉ v
  no_escape : hasEscape v = false

theorem IsValue.formDecode (h : IsValue v) : formDecode v = v :=
  formDecode_eq_self_iff.mpr ⟨h.plain.2.2, h.no_escape⟩

theorem IsValue.of_plain (h : ∀ c ∈ v, c ≠ '&' ∧ c ≠ '#' ∧ c ≠ '+' ∧ c ≠ '%') : IsValue v where
  plain := ⟨fun hc => (h _ hc).1 rfl, fun hc => (h _ hc).2.1 rfl, fun hc => (h _ hc).2.2.1 rfl⟩
  no_escape := hasEscape_eq_false fun hc => (h _ hc).2.2.2 rfl

theorem formParse_cons_of_isValue (he : IsKey e.1) (hv : IsValue e.2) :
    formParse (beforeFragment (formText (e :: es))) =
      e :: formParse (beforeFragment (formText es)) := by
  rw [formParse_formText_cons he hv.plain.1 hv.plain.2.1, hv.formDecode]

/-- A form of good pairs is read as it is written. -/
theorem formParse_formText (hkeys : ∀ e ∈ es, IsKey e.1) (hvalues : ∀ e ∈ es, IsValue e.2) :
    formParse (beforeFragment (formText es)) = es := by
  induction es with
  | nil => rfl
  | cons e es ih =>
    rw [formParse_cons_of_isValue (hkeys e List.mem_cons_self) (hvalues e List.mem_cons_self),
      ih (fun x hx => hkeys x (List.mem_cons_of_mem _ hx))
        fun x hx => hvalues x (List.mem_cons_of_mem _ hx)]

/-- **A pair that is read once, and as it is written, has a good value.** -/
theorem isValue_of_filter (hkeys : ∀ e ∈ es, IsKey e.1) (hnodup : (es.map Prod.fst).Nodup)
    (h : ∀ e ∈ es, IsValue e.2 ∨
      (formParse (beforeFragment (formText es))).filter (fun e' => e'.1 = e.1) = [e]) :
    ∀ e ∈ es, IsValue e.2 := by
  induction es with
  | nil => exact fun _ he => absurd he List.not_mem_nil
  | cons e es ih =>
    have hkey := hkeys e List.mem_cons_self
    rw [List.map_cons, List.nodup_cons] at hnodup
    have hvalue : IsValue e.2 := by
      refine (h e List.mem_cons_self).elim id fun hread => ?_
      by_cases hsep : '&' ∈ e.2 ∨ '#' ∈ e.2
      · obtain ⟨w, more, hparse, hlt⟩ := formParse_formText_cut hkey hsep es
        rw [hparse, List.filter_cons_of_pos (by simp)] at hread
        have hw : w = e.2 := congrArg Prod.snd (List.cons.inj hread).1
        exact absurd (hw ▸ hlt) (Nat.lt_irrefl _)
      · rw [not_or] at hsep
        rw [formParse_formText_cons hkey hsep.1 hsep.2, List.filter_cons_of_pos (by simp)] at hread
        have hw : Url.formDecode e.2 = e.2 := congrArg Prod.snd (List.cons.inj hread).1
        have hplain := formDecode_eq_self_iff.mp hw
        exact ⟨⟨hsep.1, hsep.2, hplain.1⟩, hplain.2⟩
    intro x hx
    rcases List.mem_cons.mp hx with rfl | hx
    · exact hvalue
    · refine ih (fun y hy => hkeys y (List.mem_cons_of_mem _ hy)) hnodup.2 (fun y hy => ?_) x hx
      refine (h y (List.mem_cons_of_mem _ hy)).imp id fun hread => ?_
      have hkeyne : e.1 ≠ y.1 := fun heq => hnodup.1 (heq ▸ List.mem_map_of_mem hy)
      rwa [formParse_cons_of_isValue hkey hvalue, List.filter_cons_of_neg (by simpa using hkeyne)]
        at hread

/-! ### Origins -/

/-- The scheme and the authority of a URL. -/
structure Origin where
  scheme : List Char
  authority : List Char
  scheme_plain : ':' ∉ scheme
  authority_plain : ∀ c ∈ authority, c ≠ '/' ∧ c ≠ '?' ∧ c ≠ '#'

def Origin.text (o : Origin) : List Char := o.scheme ++ ':' :: '/' :: '/' :: o.authority

/-- What of a URL comes after its authority. -/
def afterAuthority (url : List Char) : List Char :=
  ((url.dropWhile (· ≠ ':')).drop 3).dropWhile fun c => c ≠ '/' ∧ c ≠ '?' ∧ c ≠ '#'

theorem afterAuthority_text (o : Origin) (rest : List Char) :
    afterAuthority (o.text ++ '/' :: rest) = '/' :: rest := by
  have hscheme : ∀ c ∈ o.scheme, decide (c ≠ ':') = true :=
    fun c hc => decide_eq_true fun heq => o.scheme_plain (heq ▸ hc)
  have hauthority : ∀ c ∈ o.authority, decide (c ≠ '/' ∧ c ≠ '?' ∧ c ≠ '#') = true :=
    fun c hc => decide_eq_true (o.authority_plain c hc)
  have hparts : o.text ++ '/' :: rest =
      o.scheme ++ (':' :: '/' :: '/' :: (o.authority ++ '/' :: rest)) := by
    simp [Origin.text]
  rw [hparts, afterAuthority, List.dropWhile_append_of_pos hscheme]
  exact List.dropWhile_append_of_pos hauthority

/-! ### Paths -/

/-- The path of what comes after the authority. -/
def pathOf (target : List Char) : List Char := target.takeWhile fun c => c ≠ '?' ∧ c ≠ '#'

/-- The query: what is between the first question mark and the fragment. -/
def queryOf (target : List Char) : List Char :=
  ((beforeFragment target).dropWhile (· ≠ '?')).drop 1

/-- The segments that go nowhere or back. -/
def isDot (seg : List Char) : Bool := seg = ['.'] ∨ seg = ['.', '.']

/-- The path so far, one segment on. -/
def step (stack : List (List Char)) (seg : List Char) : List (List Char) :=
  if seg = ['.'] then stack else if seg = ['.', '.'] then stack.dropLast else stack ++ [seg]

/-- The segments without the dots: a path that ends in one ends in a slash. -/
def removeDots (segs : List (List Char)) : List (List Char) :=
  segs.foldl step [] ++ if segs.getLast?.any isDot then [[]] else []

/-- The segments of the path. -/
def segments (target : List Char) : List (List Char) :=
  removeDots (((pathOf target).drop 1).splitOn '/')

/-- Segments written one after the other, as they are. -/
def pathText (segs : List (List Char)) : List Char := segs.flatMap ('/' :: ·)

/-- A segment that is written as it is, and read as it is. -/
structure IsSegment (seg : List Char) : Prop where
  plain : '/' ∉ seg ∧ '?' ∉ seg ∧ '#' ∉ seg
  not_dot : isDot seg = false

variable {seg s q : List Char} {segs L P : List (List Char)}

theorem pathText_cons (seg : List Char) (segs : List (List Char)) :
    pathText (seg :: segs) = '/' :: seg ++ pathText segs := List.flatMap_cons

theorem pathText_append (L P : List (List Char)) : pathText (L ++ P) = pathText L ++ pathText P :=
  List.flatMap_append

theorem pathText_splitOn (s : List Char) : pathText (s.splitOn '/') = '/' :: s := by
  induction s with
  | nil => rfl
  | cons c s ih =>
    rw [List.splitOn_cons_eq_if_modifyHead]
    split_ifs with h
    · rw [pathText_cons, ih, eq_of_beq h]
      rfl
    · cases hsplit : s.splitOn '/' with
      | nil => exact absurd hsplit (List.splitOn_ne_nil _ _)
      | cons x xs =>
        rw [hsplit, pathText_cons] at ih
        rw [List.modifyHead_cons, pathText_cons]
        exact congrArg (fun t => '/' :: c :: t) (List.cons.inj ih).2

theorem not_mem_of_mem_splitOn (h : seg ∈ s.splitOn '/') : '/' ∉ seg := by
  induction s generalizing seg with
  | nil =>
    rw [List.splitOn_nil, List.mem_singleton] at h
    rw [h]
    exact List.not_mem_nil
  | cons c s ih =>
    rw [List.splitOn_cons_eq_if_modifyHead] at h
    split_ifs at h with hc
    · rcases List.mem_cons.mp h with rfl | h
      · exact List.not_mem_nil
      · exact ih h
    · cases hsplit : s.splitOn '/' with
      | nil => exact absurd hsplit (List.splitOn_ne_nil _ _)
      | cons x xs =>
        rw [hsplit] at h ih
        rcases List.mem_cons.mp h with rfl | h
        · rw [List.mem_cons, not_or]
          exact ⟨fun heq => hc (beq_iff_eq.mpr heq.symm), ih List.mem_cons_self⟩
        · exact ih (List.mem_cons_of_mem _ h)

theorem splitOn_pathText (hL : L ≠ []) (h : ∀ seg ∈ L, '/' ∉ seg) :
    ((pathText L).drop 1).splitOn '/' = L := by
  induction L with
  | nil => exact absurd rfl hL
  | cons seg L ih =>
    have hseg := h seg List.mem_cons_self
    cases L with
    | nil =>
      rw [pathText_cons, show pathText [] = [] from rfl, List.append_nil]
      exact List.splitOn_eq_singleton hseg
    | cons seg' L =>
      have hrest := ih (List.cons_ne_nil _ _) fun x hx => h x (List.mem_cons_of_mem _ hx)
      have htext : (pathText (seg :: seg' :: L)).drop 1 =
          seg ++ '/' :: (pathText (seg' :: L)).drop 1 := by
        rw [pathText_cons, pathText_cons]
        rfl
      rw [htext, List.splitOn_append_cons_self_of_not_mem hseg, hrest]

theorem step_of_not_dot (h : isDot seg = false) (stack : List (List Char)) :
    step stack seg = stack ++ [seg] := by
  rw [isDot, decide_eq_false_iff_not, not_or] at h
  rw [step, if_neg h.1, if_neg h.2]

theorem foldl_step_of_not_dot (h : ∀ seg ∈ segs, isDot seg = false) (stack : List (List Char)) :
    segs.foldl step stack = stack ++ segs := by
  induction segs generalizing stack with
  | nil => exact (List.append_nil _).symm
  | cons seg segs ih =>
    rw [List.foldl_cons, step_of_not_dot (h seg List.mem_cons_self),
      ih fun x hx => h x (List.mem_cons_of_mem _ hx), List.append_assoc]
    rfl

theorem removeDots_of_not_dot (h : ∀ seg ∈ segs, isDot seg = false) : removeDots segs = segs := by
  have hlast : segs.getLast?.any isDot = false := by
    rw [Option.any_eq_false]
    exact fun x hx => h x (List.mem_of_getLast? hx)
  rw [removeDots, foldl_step_of_not_dot h, hlast, List.nil_append]
  exact List.append_nil _

theorem length_pathText_dropLast_le (stack : List (List Char)) :
    (pathText stack.dropLast).length ≤ (pathText stack).length := by
  obtain ⟨last, hlast⟩ := List.dropLast_prefix stack
  have htext := congrArg (List.length ∘ pathText) hlast
  simp only [Function.comp_apply, pathText_append, List.length_append] at htext
  omega

/-- The stack keeps the whole text, or a dot has taken some of it away. -/
theorem length_foldl_step (segs stack : List (List Char)) :
    (∀ seg ∈ segs, isDot seg = false) ∨
      (pathText (segs.foldl step stack)).length + 2 ≤
        (pathText stack).length + (pathText segs).length := by
  induction segs generalizing stack with
  | nil => exact Or.inl fun _ h => absurd h List.not_mem_nil
  | cons seg segs ih =>
    have hlen : (pathText (seg :: segs)).length = seg.length + 1 + (pathText segs).length := by
      rw [pathText_cons, List.length_append, List.length_cons]
    have hrest : ∀ st : List (List Char), (pathText (segs.foldl step st)).length ≤
        (pathText st).length + (pathText segs).length := by
      intro st
      rcases ih st with h | h
      · exact Nat.le_of_eq (by rw [foldl_step_of_not_dot h, pathText_append, List.length_append])
      · omega
    rw [List.foldl_cons]
    by_cases hdot : seg = ['.']
    · have hstep : step stack seg = stack := if_pos hdot
      have hone : seg.length = 1 := by rw [hdot]; rfl
      have hle := hrest stack
      rw [hstep]
      exact Or.inr (by omega)
    by_cases hback : seg = ['.', '.']
    · have hstep : step stack seg = stack.dropLast := (if_neg hdot).trans (if_pos hback)
      have htwo : seg.length = 2 := by rw [hback]; rfl
      have hle := hrest stack.dropLast
      have hdrop := length_pathText_dropLast_le stack
      rw [hstep]
      exact Or.inr (by omega)
    · have hseg : isDot seg = false := decide_eq_false (not_or.mpr ⟨hdot, hback⟩)
      have hone : (pathText [seg]).length = seg.length + 1 := by
        rw [pathText_cons, List.length_append, List.length_cons]
        rfl
      rw [step_of_not_dot hseg]
      rcases ih (stack ++ [seg]) with h | h
      · refine Or.inl fun x hx => ?_
        rcases List.mem_cons.mp hx with rfl | hx
        · exact hseg
        · exact h x hx
      · rw [pathText_append, List.length_append] at h
        exact Or.inr (by omega)

/-- **Dots shorten a path.** -/
theorem length_removeDots (segs : List (List Char)) :
    (∀ seg ∈ segs, isDot seg = false) ∨
      (pathText (removeDots segs)).length < (pathText segs).length := by
  have hnil : (pathText []).length = 0 := rfl
  have hone : (pathText [[]]).length = 1 := rfl
  rcases length_foldl_step segs [] with h | h
  · exact Or.inl h
  · rw [removeDots, pathText_append, List.length_append]
    split_ifs <;> exact Or.inr (by omega)

theorem pathOf_append (h : ∀ c ∈ s, c ≠ '?' ∧ c ≠ '#') (hq : q = [] ∨ ∃ t, q = '?' :: t) :
    pathOf (s ++ q) = s := by
  have hall : ∀ c ∈ s, decide (c ≠ '?' ∧ c ≠ '#') = true := fun c hc => decide_eq_true (h c hc)
  rw [pathOf, List.takeWhile_append_of_pos hall]
  rcases hq with rfl | ⟨t, rfl⟩
  · exact List.append_nil _
  · exact List.append_nil _

theorem length_pathOf_append_lt (s q : List Char) :
    (pathOf (s ++ q)).length < s.length ∨ ∀ c ∈ s, c ≠ '?' ∧ c ≠ '#' := by
  induction s with
  | nil => exact Or.inr fun _ h => absurd h List.not_mem_nil
  | cons c s ih =>
    by_cases hc : c ≠ '?' ∧ c ≠ '#'
    · have hcons : pathOf (c :: s ++ q) = c :: pathOf (s ++ q) :=
        List.takeWhile_cons_of_pos (decide_eq_true hc)
      rcases ih with h | h
      · rw [hcons, List.length_cons, List.length_cons]
        exact Or.inl (by omega)
      · refine Or.inr fun x hx => ?_
        rcases List.mem_cons.mp hx with rfl | hx
        · exact hc
        · exact h x hx
    · have hcons : pathOf (c :: s ++ q) = [] :=
        List.takeWhile_cons_of_neg fun h => hc (of_decide_eq_true h)
      rw [hcons]
      exact Or.inl (Nat.succ_pos _)

theorem mem_pathText {c : Char} (h : c ∈ pathText L) : c = '/' ∨ ∃ seg ∈ L, c ∈ seg := by
  obtain ⟨seg, hseg, hc⟩ := List.mem_flatMap.mp h
  rcases List.mem_cons.mp hc with hc | hc
  · exact Or.inl hc
  · exact Or.inr ⟨seg, hseg, hc⟩

theorem mem_pathText_of_mem {c : Char} (hseg : seg ∈ L) (hc : c ∈ seg) : c ∈ pathText L :=
  List.mem_flatMap.mpr ⟨seg, hseg, List.mem_cons_of_mem _ hc⟩

theorem plain_pathText (h : ∀ seg ∈ L, IsSegment seg) : ∀ c ∈ pathText L, c ≠ '?' ∧ c ≠ '#' := by
  intro c hc
  rcases mem_pathText hc with rfl | ⟨seg, hseg, hc⟩
  · decide
  · have hplain := (h seg hseg).plain
    exact ⟨fun heq => hplain.2.1 (heq ▸ hc), fun heq => hplain.2.2 (heq ▸ hc)⟩

/-- Good segments are read as they are written. -/
theorem segments_pathText (hL : L ≠ []) (h : ∀ seg ∈ L, IsSegment seg)
    (hq : q = [] ∨ ∃ t, q = '?' :: t) : segments (pathText L ++ q) = L := by
  rw [segments, pathOf_append (plain_pathText h) hq,
    splitOn_pathText hL fun seg hseg => (h seg hseg).plain.1,
    removeDots_of_not_dot fun seg hseg => (h seg hseg).not_dot]

theorem length_pathText_le (h : List.Forall₂ (fun s p => s.length ≤ p.length) L P) :
    (pathText L).length ≤ (pathText P).length := by
  induction h with
  | nil => exact Nat.le_refl _
  | cons hle _ ih =>
    rw [pathText_cons, pathText_cons, List.length_append, List.length_append, List.length_cons,
      List.length_cons]
    omega

/-- Texts of one length, parted into no longer pieces: the pieces are the same. -/
theorem eq_of_pathText_eq (h : List.Forall₂ (fun s p => s.length ≤ p.length) L P)
    (heq : pathText L = pathText P) : L = P := by
  induction h with
  | nil => rfl
  | @cons s p L P hle htail ih =>
    have hrest := length_pathText_le htail
    rw [pathText_cons, pathText_cons] at heq
    have htotal := congrArg List.length heq
    simp only [List.length_append, List.length_cons] at htotal
    obtain ⟨hhead, htext⟩ := List.append_inj heq (by simp only [List.length_cons]; omega)
    rw [(List.cons.inj hhead).2, ih htext]

/-- **Segments that are read no shorter than they were written are read as they were
written.** -/
theorem segments_pathText_inv (hL : L ≠ []) (hq : q = [] ∨ ∃ t, q = '?' :: t)
    (h : List.Forall₂ (fun s p => s.length ≤ p.length) L (segments (pathText L ++ q))) :
    segments (pathText L ++ q) = L ∧ ∀ seg ∈ L, IsSegment seg := by
  have hslash : ∃ rest, pathText L = '/' :: rest := by
    cases L with
    | nil => exact absurd rfl hL
    | cons seg L => exact ⟨seg ++ pathText L, pathText_cons seg L⟩
  obtain ⟨rest, hrest⟩ := hslash
  have hpath : pathOf (pathText L ++ q) = '/' :: pathOf (rest ++ q) := by
    rw [hrest]
    rfl
  have hsegs : segments (pathText L ++ q) = removeDots ((pathOf (rest ++ q)).splitOn '/') := by
    rw [segments, hpath]
    rfl
  have hsplit := pathText_splitOn (pathOf (rest ++ q))
  have hlen := congrArg List.length hsplit
  have hle := length_pathText_le h
  rw [hsegs, hrest, List.length_cons] at hle
  rw [List.length_cons] at hlen
  -- neither a question mark nor a dot has taken anything away
  rcases length_removeDots ((pathOf (rest ++ q)).splitOn '/') with hdots | hlt
  · rw [removeDots_of_not_dot hdots] at hle hsegs
    rcases length_pathOf_append_lt rest q with hcut | hplain
    · omega
    · rw [pathOf_append hplain hq] at hsegs hsplit hdots
      have heq : L = rest.splitOn '/' :=
        eq_of_pathText_eq (hsegs ▸ h) (hrest.trans hsplit.symm)
      refine ⟨hsegs.trans heq.symm, fun seg hseg => ⟨⟨?_, ?_⟩, ?_⟩⟩
      · exact not_mem_of_mem_splitOn (heq ▸ hseg)
      · have hmem : ∀ c ∈ seg, c ≠ '?' ∧ c ≠ '#' := by
          intro c hc
          have htext := mem_pathText_of_mem hseg hc
          rw [hrest] at htext
          rcases List.mem_cons.mp htext with rfl | htext
          · decide
          · exact hplain c htext
        exact ⟨fun hc => (hmem _ hc).1 rfl, fun hc => (hmem _ hc).2 rfl⟩
      · exact hdots seg (heq ▸ hseg)
  · rcases length_pathOf_append_lt rest q with hcut | hplain
    · omega
    · rw [pathOf_append hplain hq] at hlt hle hlen
      omega

/-- The query of a good path is what is written after the question mark. -/
theorem queryOf_pathText (h : ∀ seg ∈ L, IsSegment seg) (t : List Char) :
    queryOf (pathText L ++ '?' :: t) = beforeFragment t := by
  have hplain := plain_pathText h
  have hhash : '#' ∉ pathText L := fun hc => (hplain _ hc).2 rfl
  have hmark : ∀ c ∈ pathText L, decide (c ≠ '?') = true :=
    fun c hc => decide_eq_true (hplain c hc).1
  have hcut : beforeFragment ('?' :: t) = '?' :: beforeFragment t := rfl
  rw [queryOf, beforeFragment_append hhash, hcut, List.dropWhile_append_of_pos hmark]
  rfl

theorem queryOf_pathText_nil (h : ∀ seg ∈ L, IsSegment seg) : queryOf (pathText L) = [] := by
  have hplain := plain_pathText h
  have hhash : '#' ∉ pathText L := fun hc => (hplain _ hc).2 rfl
  have hmark : ∀ c ∈ pathText L, decide (c ≠ '?') = true :=
    fun c hc => decide_eq_true (hplain c hc).1
  have hwhole := beforeFragment_append hhash []
  rw [List.append_nil, show beforeFragment [] = [] from rfl, List.append_nil] at hwhole
  have hdrop : (pathText L ++ []).dropWhile (· ≠ '?') = [] :=
    List.dropWhile_append_of_pos hmark
  rw [List.append_nil] at hdrop
  rw [queryOf, hwhole, hdrop]
  rfl

end Url
