import Mathlib.Data.List.Basic

/-!
# UTF-8 in pieces

Bytes are read from the front, a character at a time.  Where no character begins,
the bytes skipped are the longest beginning a character could have, and at least
one byte (`badLength`).  Strict decoding gives up there; lossy decoding puts the
replacement character in their place.

A text that is cut into pieces may be cut inside a character.  Strict decoding
then loses both pieces, and whatever else they hold (`Leftover`).  Lossy decoding
loses the character only, and puts two replacement characters or more for it
(`Replaced`).  Both relations are exact: `leftover_iff` and `replaced_iff`.
-/

namespace Utf8

/-- The bytes of a text. -/
def encode (cs : List Char) : List UInt8 := cs.flatMap String.utf8EncodeChar

/-- The character the bytes begin with. -/
def decodeChar? (bs : List UInt8) : Option Char := bs.toByteArray.utf8DecodeChar? 0

/-- Whether `b₁` may stand second in a character of three or four bytes that begins
with `b`. -/
def maySecond (b b₁ : UInt8) : Bool :=
  if b = 0xE0 then 0xA0 ≤ b₁ && b₁ ≤ 0xBF
  else if b = 0xED then 0x80 ≤ b₁ && b₁ ≤ 0x9F
  else if b = 0xF0 then 0x90 ≤ b₁ && b₁ ≤ 0xBF
  else if b = 0xF4 then 0x80 ≤ b₁ && b₁ ≤ 0x8F
  else 0xE1 ≤ b && b ≤ 0xF3 && 0x80 ≤ b₁ && b₁ ≤ 0xBF

/-- How many bytes are skipped where no character begins. -/
def badLength : List UInt8 → ℕ
  | b :: b₁ :: bs =>
    if maySecond b b₁ then
      match bs with
      | b₂ :: _ => if 0xF0 ≤ b ∧ 0x80 ≤ b₂ ∧ b₂ ≤ 0xBF then 3 else 2
      | [] => 2
    else 1
  | _ => 1

/-- The characters after the first `skip` bytes, with `none` for what is no
character. -/
def scanFrom : ℕ → List UInt8 → List (Option Char)
  | _, [] => []
  | skip + 1, _ :: bs => scanFrom skip bs
  | 0, b :: bs =>
    match decodeChar? (b :: bs) with
    | some c => some c :: scanFrom (c.utf8Size - 1) bs
    | none => none :: scanFrom (badLength (b :: bs) - 1) bs

def scan (bs : List UInt8) : List (Option Char) := scanFrom 0 bs

/-- Strict decoding. -/
def fromUtf8 (bs : List UInt8) : Option (List Char) := (scan bs).mapM id

/-- Lossy decoding. -/
def fromUtf8Lossy (bs : List UInt8) : List Char := (scan bs).map (·.getD '\uFFFD')

/-! ### Characters -/

variable {bs p q : List UInt8} {c : Char} {as cs ds : List Char}

theorem decodeChar?_append (c : Char) (bs : List UInt8) :
    decodeChar? (String.utf8EncodeChar c ++ bs) = some c := by
  rw [decodeChar?, List.toByteArray_append]
  exact ByteArray.utf8DecodeChar?_utf8EncodeChar_append

theorem eq_append_of_decodeChar? (h : decodeChar? bs = some c) :
    ∃ rest, bs = String.utf8EncodeChar c ++ rest := by
  obtain ⟨l, hl⟩ := ByteArray.exists_of_utf8DecodeChar?_eq_some h
  refine ⟨l.data.toList, ?_⟩
  have hdata := congrArg (fun b : ByteArray => b.data.toList) hl
  simpa using hdata

/-- No character is the beginning of another. -/
theorem decodeChar?_of_prefix (h : p ++ q = String.utf8EncodeChar c) (hq : q ≠ []) :
    decodeChar? p = none := by
  rw [Option.eq_none_iff_forall_not_mem]
  intro d hd
  obtain ⟨rest, rfl⟩ := eq_append_of_decodeChar? hd
  have hdc : decodeChar? (String.utf8EncodeChar c) = some d := by
    rw [← h, List.append_assoc, decodeChar?_append]
  have hcc : decodeChar? (String.utf8EncodeChar c) = some c := by
    simpa using decodeChar?_append c []
  have heq : d = c := Option.some.inj (hdc.symm.trans hcc)
  have hlen := congrArg List.length h
  rw [heq] at hlen
  have hpos : 0 < q.length := List.length_pos_iff.mpr hq
  simp only [List.length_append] at hlen
  omega

/-- The bytes of a character after its first one. -/
def Continues (q : List UInt8) : Prop := ∀ b ∈ q, ¬ b.IsUTF8FirstByte

theorem continues_of_suffix (h : p ++ q = String.utf8EncodeChar c) (hp : p ≠ []) :
    Continues q := by
  intro b hb hfirst
  obtain ⟨i, hi, rfl⟩ := List.getElem_of_mem hb
  have hpos : 0 < p.length := List.length_pos_iff.mpr hp
  have hlt : p.length + i < (String.utf8EncodeChar c).length := by
    rw [← h, List.length_append]
    omega
  have hget : (String.utf8EncodeChar c)[p.length + i] = q[i] := by
    simp [← h]
  rw [← hget, UInt8.isUTF8FirstByte_getElem_utf8EncodeChar] at hfirst
  omega

theorem decodeChar?_of_continues {b : UInt8} (hb : ¬ b.IsUTF8FirstByte) :
    decodeChar? (b :: bs) = none := by
  rw [Option.eq_none_iff_forall_not_mem]
  intro c hc
  obtain ⟨rest, hrest⟩ := eq_append_of_decodeChar? hc
  have hne : String.utf8EncodeChar c ≠ [] := String.utf8EncodeChar_ne_nil
  have hpos : 0 < (String.utf8EncodeChar c).length := List.length_pos_iff.mpr hne
  have hget : (String.utf8EncodeChar c)[0] = b := by
    have h0 : (b :: bs)[0]? = (String.utf8EncodeChar c ++ rest)[0]? := by rw [hrest]
    rw [List.getElem?_append_left hpos, List.getElem?_eq_getElem hpos] at h0
    exact (Option.some.inj h0).symm
  exact hb (hget ▸ UInt8.isUTF8FirstByte_getElem_zero_utf8EncodeChar)

/-! ### What is skipped -/

theorem maySecond_iff {b b₁ : UInt8} : maySecond b b₁ = true ↔
    0xE0 ≤ b.toNat ∧ b.toNat ≤ 0xF4 ∧
      (if b.toNat = 0xE0 then 0xA0 else if b.toNat = 0xF0 then 0x90 else 0x80) ≤ b₁.toNat ∧
      b₁.toNat ≤ (if b.toNat = 0xED then 0x9F else if b.toNat = 0xF4 then 0x8F else 0xBF) := by
  simp only [maySecond, ← UInt8.toNat_inj, UInt8.reduceToNat]
  split_ifs <;> simp [UInt8.le_iff_toNat_le] <;> omega

theorem of_not_isUTF8FirstByte {b : UInt8} (hb : ¬ b.IsUTF8FirstByte) :
    b.toNat < 0xE0 ∨ 0xF4 < b.toNat := by
  have h : ∀ n : Fin 256, ¬ (UInt8.ofFin n).IsUTF8FirstByte →
      (UInt8.ofFin n).toNat < 0xE0 ∨ 0xF4 < (UInt8.ofFin n).toNat := by
    decide +kernel
  exact h b.toFin hb

/-- A byte that is not a first byte is skipped by itself. -/
theorem badLength_of_continues {b : UInt8} (hb : ¬ b.IsUTF8FirstByte) :
    badLength (b :: bs) = 1 := by
  have hrange := of_not_isUTF8FirstByte hb
  cases bs with
  | nil => rfl
  | cons b₁ bs =>
    have hmay : ¬ maySecond b b₁ = true := by
      rw [maySecond_iff]
      omega
    simp only [badLength, if_neg hmay]

theorem maySecond_three {n : ℕ} (hlo : 0x7ff < n) (hhi : n ≤ 0xffff)
    (hs : n < 0xd800 ∨ 0xdfff < n) :
    maySecond (.ofNat (n / 4096 % 0x10 + 0xe0)) (.ofNat (n / 64 % 0x40 + 0x80)) = true := by
  rw [maySecond_iff]
  simp only [UInt8.toNat_ofNat']
  split_ifs <;> omega

theorem maySecond_four {n : ℕ} (hlo : 0xffff < n) (hhi : n < 0x110000) :
    maySecond (.ofNat (n / 262144 % 0x08 + 0xf0)) (.ofNat (n / 4096 % 0x40 + 0x80)) = true := by
  rw [maySecond_iff]
  simp only [UInt8.toNat_ofNat']
  split_ifs <;> omega

/-- The first and the third byte of a character of four. -/
theorem third_of_four (n : ℕ) : 0xF0 ≤ UInt8.ofNat (n / 262144 % 0x08 + 0xf0) ∧
    0x80 ≤ UInt8.ofNat (n / 64 % 0x40 + 0x80) ∧ UInt8.ofNat (n / 64 % 0x40 + 0x80) ≤ 0xBF := by
  simp only [UInt8.le_iff_toNat_le, UInt8.toNat_ofNat', UInt8.reduceToNat]
  omega

/-- A list that is put together is the left part and the right part of one of its cuts. -/
theorem eq_take_of_append {p q xs : List UInt8} (h : p ++ q = xs) (hq : q ≠ []) :
    p = xs.take p.length ∧ p.length < xs.length := by
  subst h
  have hpos : 0 < q.length := List.length_pos_iff.mpr hq
  rw [List.take_left, List.length_append]
  exact ⟨rfl, by omega⟩

/-- The beginning of a character is skipped at once. -/
theorem badLength_of_prefix (h : p ++ q = String.utf8EncodeChar c) (hp : p ≠ []) (hq : q ≠ []) :
    badLength p = p.length := by
  have hvalid : c.val.toNat < 0xd800 ∨ 0xdfff < c.val.toNat ∧ c.val.toNat < 0x110000 := c.valid
  obtain ⟨htake, hlt⟩ := eq_take_of_append h hq
  have hpos : 0 < p.length := List.length_pos_iff.mpr hp
  rw [String.utf8EncodeChar] at htake hlt
  generalize p.length = k at htake hlt hpos ⊢
  subst htake
  clear h hp
  split_ifs at hlt ⊢ with h1 h2 h3
  · simp only [List.length_cons, List.length_nil] at hlt
    omega
  · simp only [List.length_cons, List.length_nil] at hlt
    obtain rfl : k = 1 := by omega
    rfl
  · simp only [List.length_cons, List.length_nil] at hlt
    have hmay := maySecond_three (n := c.val.toNat) (by omega) (by omega) (by omega)
    have hk : k = 1 ∨ k = 2 := by omega
    rcases hk with rfl | rfl
    · rfl
    · simp only [List.take_succ_cons, List.take_zero, badLength, hmay, if_true]
  · simp only [List.length_cons, List.length_nil] at hlt
    have hmay := maySecond_four (n := c.val.toNat) (by omega) (by omega)
    have hthird := third_of_four c.val.toNat
    have hk : k = 1 ∨ k = 2 ∨ k = 3 := by omega
    rcases hk with rfl | rfl | rfl
    · rfl
    · simp only [List.take_succ_cons, List.take_zero, badLength, hmay, if_true]
    · simp only [List.take_succ_cons, List.take_zero, badLength, hmay, if_true, hthird, and_self]

/-! ### Scanning -/

theorem scanFrom_eq (skip : ℕ) (bs : List UInt8) : scanFrom skip bs = scan (bs.drop skip) := by
  induction bs generalizing skip with
  | nil => rw [List.drop_nil, scan, scanFrom, scanFrom]
  | cons b bs ih =>
    cases skip with
    | zero => rfl
    | succ skip => rw [scanFrom, ih, List.drop_succ_cons]

@[simp] theorem scan_nil : scan [] = [] := rfl

theorem scan_append (c : Char) (bs : List UInt8) :
    scan (String.utf8EncodeChar c ++ bs) = some c :: scan bs := by
  have hdec := decodeChar?_append c bs
  have hlen : (String.utf8EncodeChar c).length = c.utf8Size := String.length_utf8EncodeChar c
  have hpos : 0 < c.utf8Size := c.utf8Size_pos
  cases henc : String.utf8EncodeChar c with
  | nil => exact absurd henc String.utf8EncodeChar_ne_nil
  | cons b tail =>
    rw [henc] at hdec hlen
    have htail : tail.length = c.utf8Size - 1 := by
      rw [List.length_cons] at hlen
      omega
    rw [List.cons_append] at hdec ⊢
    rw [scan, scanFrom, hdec]
    simp only
    rw [scanFrom_eq, ← htail, List.drop_left]

@[simp] theorem scan_encode_append (cs : List Char) (bs : List UInt8) :
    scan (encode cs ++ bs) = cs.map some ++ scan bs := by
  induction cs with
  | nil => rfl
  | cons c cs ih =>
    rw [encode, List.flatMap_cons, List.append_assoc, scan_append, List.map_cons, List.cons_append]
    exact congrArg _ ih

theorem scan_continues_append (hq : Continues q) (bs : List UInt8) :
    scan (q ++ bs) = List.replicate q.length none ++ scan bs := by
  induction q with
  | nil => rfl
  | cons b q ih =>
    have hb : ¬ b.IsUTF8FirstByte := hq b List.mem_cons_self
    have ih := ih fun x hx => hq x (List.mem_cons_of_mem b hx)
    rw [List.cons_append, scan, scanFrom, decodeChar?_of_continues hb, badLength_of_continues hb]
    exact congrArg (none :: ·) ih

/-- A byte that goes on is no first one. -/
theorem not_isUTF8FirstByte {b : UInt8} (hle : 0x80 ≤ b.toNat) (hlt : b.toNat ≤ 0xBF) :
    ¬ b.IsUTF8FirstByte := by
  have h : ∀ n : Fin 256, 0x80 ≤ (UInt8.ofFin n).toNat → (UInt8.ofFin n).toNat ≤ 0xBF →
      ¬ (UInt8.ofFin n).IsUTF8FirstByte := by
    decide +kernel
  exact h b.toFin hle hlt

theorem continues_skipped (b : UInt8) (bs : List UInt8) :
    Continues (bs.take (badLength (b :: bs) - 1)) := by
  have hnone : ∀ bs : List UInt8, Continues (bs.take (1 - 1)) := by
    intro bs
    rw [Nat.sub_self, List.take_zero]
    nofun
  rcases bs with _ | ⟨b₁, bs⟩
  · exact hnone []
  by_cases hmay : maySecond b b₁ = true
  · have hrange := maySecond_iff.mp hmay
    have hfirst : ¬ b₁.IsUTF8FirstByte := by
      refine not_isUTF8FirstByte ?_ ?_ <;> split_ifs at hrange <;> omega
    have hone : Continues [b₁] := fun x hx => List.mem_singleton.mp hx ▸ hfirst
    rcases bs with _ | ⟨b₂, bs⟩
    · have hbad : badLength [b, b₁] = 2 := by simp only [badLength, hmay, if_true]
      rw [hbad]
      exact hone
    by_cases hthird : 0xF0 ≤ b ∧ 0x80 ≤ b₂ ∧ b₂ ≤ 0xBF
    · have hsecond : ¬ b₂.IsUTF8FirstByte := not_isUTF8FirstByte hthird.2.1 hthird.2.2
      have htwo : Continues [b₁, b₂] := by
        intro x hx
        rcases List.mem_cons.mp hx with rfl | hx
        · exact hfirst
        · exact List.mem_singleton.mp hx ▸ hsecond
      have hbad : badLength (b :: b₁ :: b₂ :: bs) = 3 := by
        simp only [badLength, hmay, if_true, if_pos hthird]
      rw [hbad]
      exact htwo
    · have hbad : badLength (b :: b₁ :: b₂ :: bs) = 2 := by
        simp only [badLength, hmay, if_true, if_neg hthird]
      rw [hbad]
      exact hone
  · have hbad : badLength (b :: b₁ :: bs) = 1 := by
      cases bs <;> simp only [badLength, hmay, if_false, Bool.false_eq_true]
    rw [hbad]
    exact hnone (b₁ :: bs)

/-- **A byte makes at most one character more.** -/
theorem length_scan_cons_le (b : UInt8) (bs : List UInt8) :
    (scan (b :: bs)).length ≤ (scan bs).length + 1 := by
  rw [scan, scanFrom]
  cases hdec : decodeChar? (b :: bs) with
  | some c =>
    obtain ⟨rest, hrest⟩ := eq_append_of_decodeChar? hdec
    cases henc : String.utf8EncodeChar c with
    | nil => exact absurd henc String.utf8EncodeChar_ne_nil
    | cons d tail =>
      rw [henc, List.cons_append, List.cons.injEq] at hrest
      have htail : Continues tail :=
        continues_of_suffix (p := [d]) (q := tail) henc.symm (by nofun)
      have hlen : tail.length = c.utf8Size - 1 := by
        rw [← String.length_utf8EncodeChar, henc, List.length_cons]
        rfl
      simp only [scanFrom_eq, List.length_cons]
      rw [hrest.2, ← hlen, List.drop_left, scan_continues_append htail, List.length_append]
      omega
  | none =>
    have hcont := continues_skipped b bs
    have hsplit := scan_continues_append hcont (bs.drop (badLength (b :: bs) - 1))
    rw [List.take_append_drop] at hsplit
    simp only [scanFrom_eq, List.length_cons]
    rw [hsplit, List.length_append]
    omega

theorem scan_prefix (h : p ++ q = String.utf8EncodeChar c) (hp : p ≠ []) (hq : q ≠ []) :
    scan p = [none] := by
  have hdec := decodeChar?_of_prefix h hq
  have hbad := badLength_of_prefix h hp hq
  cases p with
  | nil => exact absurd rfl hp
  | cons b p =>
    rw [scan, scanFrom, hdec, hbad, List.length_cons, Nat.add_sub_cancel]
    simp only
    rw [scanFrom_eq, List.drop_length, scan_nil]

/-! ### Decoding -/

theorem fromUtf8_eq_some : fromUtf8 bs = some cs ↔ scan bs = cs.map some := by
  rw [fromUtf8]
  generalize scan bs = os
  induction os generalizing cs with
  | nil => cases cs <;> simp
  | cons o os ih =>
    cases o with
    | none => cases cs <;> simp
    | some c => cases cs <;> simp [Option.bind_eq_some_iff, ih, and_comm]

theorem length_of_fromUtf8 (h : fromUtf8 bs = some cs) : cs.length = (scan bs).length := by
  rw [fromUtf8_eq_some.mp h, List.length_map]

theorem fromUtf8_eq_none (h : none ∈ scan bs) : fromUtf8 bs = none := by
  rw [Option.eq_none_iff_forall_not_mem]
  intro cs hcs
  rw [fromUtf8_eq_some.mp hcs] at h
  simp at h

theorem fromUtf8_encode (cs : List Char) : fromUtf8 (encode cs) = some cs := by
  rw [fromUtf8_eq_some]
  simpa using scan_encode_append cs []

/-- **Strict decoding is undone by encoding.** -/
theorem encode_of_fromUtf8 (h : fromUtf8 bs = some cs) : encode cs = bs := by
  rw [fromUtf8_eq_some] at h
  induction cs generalizing bs with
  | nil =>
    cases bs with
    | nil => rfl
    | cons b bs =>
      rw [scan, scanFrom] at h
      cases hdec : decodeChar? (b :: bs) <;> rw [hdec] at h <;> cases h
  | cons c cs ih =>
    cases bs with
    | nil => cases h
    | cons b bs =>
      cases hdec : decodeChar? (b :: bs) with
      | none =>
        rw [scan, scanFrom, hdec] at h
        cases h
      | some d =>
        obtain ⟨rest, hrest⟩ := eq_append_of_decodeChar? hdec
        rw [hrest, scan_append, List.map_cons, List.cons.injEq] at h
        obtain ⟨hd, htail⟩ := h
        rw [hrest, Option.some.inj hd, encode, List.flatMap_cons]
        exact congrArg _ (ih htail)

theorem fromUtf8Lossy_encode (cs : List Char) : fromUtf8Lossy (encode cs) = cs := by
  have hscan : scan (encode cs) = cs.map some := by simpa using scan_encode_append cs []
  rw [fromUtf8Lossy, hscan, List.map_map]
  exact List.map_id cs

/-! ### Cuts -/

theorem encode_append (as cs : List Char) : encode (as ++ cs) = encode as ++ encode cs :=
  List.flatMap_append

theorem encode_cons (c : Char) (cs : List Char) :
    encode (c :: cs) = String.utf8EncodeChar c ++ encode cs :=
  List.flatMap_cons

/-- A character cut in two. -/
structure Cut (c : Char) (p q : List UInt8) : Prop where
  append : p ++ q = String.utf8EncodeChar c
  left : p ≠ []
  right : q ≠ []

theorem Cut.length (h : Cut c p q) : p.length + q.length = c.utf8Size := by
  rw [← List.length_append, h.append, String.length_utf8EncodeChar]

theorem Cut.continues (h : Cut c p q) : Continues q := continues_of_suffix h.append h.left

theorem Cut.scan (h : Cut c p q) : scan p = [none] := scan_prefix h.append h.left h.right

theorem Cut.multibyte (h : Cut c p q) : 1 < c.utf8Size := by
  have hp : 0 < p.length := List.length_pos_iff.mpr h.left
  have hq : 0 < q.length := List.length_pos_iff.mpr h.right
  have hlen := h.length
  omega

/-- A character of several bytes can be cut after any of them but the last. -/
theorem exists_cut {k : ℕ} (hpos : 0 < k) (hlt : k < c.utf8Size) :
    ∃ p q, Cut c p q ∧ p.length = k := by
  have hlen : (String.utf8EncodeChar c).length = c.utf8Size := String.length_utf8EncodeChar c
  have htake : ((String.utf8EncodeChar c).take k).length = k := by
    rw [List.length_take]
    omega
  have hdrop : 0 < ((String.utf8EncodeChar c).drop k).length := by
    rw [List.length_drop]
    omega
  refine ⟨_, _, ⟨List.take_append_drop k _, ?_, List.length_pos_iff.mp hdrop⟩, htake⟩
  rw [← List.length_pos_iff, htake]
  exact hpos

/-- A cut of a text falls between two characters or inside one. -/
theorem encode_eq_append {x y : List UInt8} (h : x ++ y = encode cs) :
    (∃ as bs, cs = as ++ bs ∧ x = encode as ∧ y = encode bs) ∨
      ∃ as c bs p q, cs = as ++ c :: bs ∧ Cut c p q ∧ x = encode as ++ p ∧ y = q ++ encode bs := by
  induction cs generalizing x with
  | nil =>
    rw [show encode [] = [] from rfl, List.append_eq_nil_iff] at h
    exact Or.inl ⟨[], [], rfl, h.1, h.2⟩
  | cons c cs ih =>
    rw [encode_cons, List.append_eq_append_iff] at h
    rcases h with ⟨q, henc, rfl⟩ | ⟨x', rfl, henc⟩
    · by_cases hx : x = []
      · subst hx
        exact Or.inl ⟨[], c :: cs, rfl, rfl, by rw [encode_cons, henc, List.nil_append]⟩
      by_cases hq : q = []
      · subst hq
        exact Or.inl ⟨[c], cs, rfl, by simpa [encode] using henc.symm, rfl⟩
      · exact Or.inr ⟨[], c, cs, x, q, rfl, ⟨henc.symm, hx, hq⟩, rfl, rfl⟩
    · rcases ih henc.symm with ⟨as, bs, rfl, rfl, rfl⟩ | ⟨as, d, bs, p, q, rfl, hcut, rfl, rfl⟩
      · exact Or.inl ⟨c :: as, bs, rfl, by rw [encode_cons], rfl⟩
      · exact Or.inr ⟨c :: as, d, bs, p, q, rfl, hcut, by rw [encode_cons, List.append_assoc], rfl⟩

/-! ### Lossy decoding of pieces -/

/-- What lossy decoding of the pieces of a text can give. -/
inductive Replaced : List Char → List Char → Prop
  | nil : Replaced [] []
  | keep {cs ds : List Char} (c : Char) : Replaced cs ds → Replaced (c :: cs) (c :: ds)
  | cut {cs ds : List Char} (c : Char) (k : ℕ) : 2 ≤ k → k ≤ c.utf8Size → Replaced cs ds →
      Replaced (c :: cs) (List.replicate k '\uFFFD' ++ ds)

theorem Replaced.append_left (h : Replaced cs ds) (as : List Char) :
    Replaced (as ++ cs) (as ++ ds) := by
  induction as with
  | nil => exact h
  | cons a as ih => exact .keep a ih

theorem Replaced.refl (cs : List Char) : Replaced cs cs := by
  simpa using Replaced.nil.append_left cs

@[simp] theorem fromUtf8Lossy_nil : fromUtf8Lossy [] = [] := rfl

theorem Replaced.append {as bs : List Char} (h : Replaced as bs) (h' : Replaced cs ds) :
    Replaced (as ++ cs) (bs ++ ds) := by
  induction h with
  | nil => exact h'
  | keep c _ ih => exact .keep c ih
  | cut c k htwo hle _ ih =>
    rw [List.append_assoc]
    exact .cut c k htwo hle ih

theorem Replaced.of_append (h : Replaced (as ++ cs) ds) :
    ∃ as' cs', ds = as' ++ cs' ∧ Replaced as as' ∧ Replaced cs cs' := by
  induction as generalizing ds with
  | nil => exact ⟨[], ds, rfl, .nil, h⟩
  | cons a as ih =>
    cases h with
    | keep _ h =>
      obtain ⟨as', cs', rfl, has, hcs⟩ := ih h
      exact ⟨a :: as', cs', rfl, .keep a has, hcs⟩
    | cut _ k htwo hle h =>
      obtain ⟨as', cs', rfl, has, hcs⟩ := ih h
      exact ⟨_ ++ as', cs', (List.append_assoc ..).symm, .cut a k htwo hle has, hcs⟩

theorem Replaced.eq_nil (h : Replaced [] ds) : ds = [] := by
  cases h
  rfl

/-- A character of one byte stays. -/
theorem Replaced.of_cons (hc : c.utf8Size = 1) (h : Replaced (c :: cs) ds) :
    ∃ ds', ds = c :: ds' ∧ Replaced cs ds' := by
  cases h with
  | keep _ h => exact ⟨_, rfl, h⟩
  | cut _ k htwo hle _ => omega

/-- No character of one byte comes to the front. -/
theorem Replaced.head (hc : c.utf8Size = 1) (h : Replaced cs ds) :
    cs.head? = some c ↔ ds.head? = some c := by
  cases h with
  | nil => exact Iff.rfl
  | keep d _ => exact Iff.rfl
  | cut d k htwo hle _ =>
    obtain ⟨j, rfl⟩ : ∃ j, k = j + 1 := ⟨k - 1, by omega⟩
    have hd : d ≠ c := by
      rintro rfl
      omega
    have hc : '\uFFFD' ≠ c := by
      rintro rfl
      revert hc
      decide
    simp [List.replicate_succ, hd, hc]

theorem Replaced.isEmpty (h : Replaced cs ds) : cs.isEmpty = ds.isEmpty := by
  cases h with
  | nil => rfl
  | keep d _ => rfl
  | cut d k htwo hle _ =>
    obtain ⟨j, rfl⟩ : ∃ j, k = j + 1 := ⟨k - 1, by omega⟩
    rfl

theorem Replaced.of_ascii_append {as : List Char} (has : ∀ c ∈ as, c.utf8Size = 1)
    (h : Replaced (as ++ cs) ds) : ∃ ds', ds = as ++ ds' ∧ Replaced cs ds' := by
  induction as generalizing ds with
  | nil => exact ⟨ds, rfl, h⟩
  | cons a as ih =>
    obtain ⟨es, rfl, hes⟩ := h.of_cons (has a List.mem_cons_self)
    obtain ⟨ds, rfl, hds⟩ := ih (fun c hc => has c (List.mem_cons_of_mem a hc)) hes
    exact ⟨ds, rfl, hds⟩

/-- A character of one byte was there before. -/
theorem Replaced.of_cons_right {c : Char} (hc : c.utf8Size = 1) (h : Replaced cs (c :: ds)) :
    ∃ cs', cs = c :: cs' ∧ Replaced cs' ds := by
  have hhead : cs.head? = some c := (h.head hc).mpr rfl
  obtain ⟨cs, rfl⟩ := List.head?_eq_some_iff.mp hhead
  obtain ⟨ds', heq, hds⟩ := h.of_cons hc
  exact ⟨cs, rfl, (List.cons.inj heq).2 ▸ hds⟩

theorem Replaced.isPrefixOf {p : List Char} (hp : ∀ c ∈ p, c.utf8Size = 1) (h : Replaced cs ds) :
    p.isPrefixOf cs = p.isPrefixOf ds := by
  induction p generalizing cs ds with
  | nil => simp
  | cons c p ih =>
    have hc := hp c List.mem_cons_self
    have hp := fun d hd => hp d (List.mem_cons_of_mem c hd)
    rw [Bool.eq_iff_iff, List.isPrefixOf_iff_prefix, List.isPrefixOf_iff_prefix]
    constructor
    · rintro ⟨t, rfl⟩
      obtain ⟨ds, rfl, hds⟩ := h.of_cons hc
      have hpre := (ih hp hds).symm.trans (List.isPrefixOf_iff_prefix.mpr (List.prefix_append p t))
      exact List.cons_prefix_cons.mpr ⟨rfl, List.isPrefixOf_iff_prefix.mp hpre⟩
    · rintro ⟨t, rfl⟩
      obtain ⟨cs, rfl, hcs⟩ := h.of_cons_right hc
      have hpre := (ih hp hcs).trans (List.isPrefixOf_iff_prefix.mpr (List.prefix_append p t))
      exact List.cons_prefix_cons.mpr ⟨rfl, List.isPrefixOf_iff_prefix.mp hpre⟩

theorem lossy_continues_append (hq : Continues q) (bs : List UInt8) :
    fromUtf8Lossy (q ++ bs) = List.replicate q.length '\uFFFD' ++ fromUtf8Lossy bs := by
  rw [fromUtf8Lossy, scan_continues_append hq, List.map_append, List.map_replicate]
  rfl

theorem lossy_encode_append (as : List Char) (bs : List UInt8) :
    fromUtf8Lossy (encode as ++ bs) = as ++ fromUtf8Lossy bs := by
  rw [fromUtf8Lossy, scan_encode_append, List.map_append, List.map_map]
  exact congrArg (· ++ _) (List.map_id as)

theorem lossy_continues (hq : Continues q) :
    fromUtf8Lossy q = List.replicate q.length '\uFFFD' := by
  simpa using lossy_continues_append hq []

theorem Cut.lossy (h : Cut c p q) : fromUtf8Lossy p = ['\uFFFD'] := by
  rw [fromUtf8Lossy, h.scan]
  rfl

/-- The pieces of a text from inside a character on: `q` is what is left of it. -/
theorem replaced_of_pieces {ks : List (List UInt8)} (hq : Continues q)
    (h : ks.flatten = q ++ encode cs) :
    ∃ ds, Replaced cs ds ∧
      ks.flatMap fromUtf8Lossy = List.replicate q.length '\uFFFD' ++ ds := by
  induction ks generalizing q cs with
  | nil =>
    obtain ⟨rfl, hcs⟩ := List.append_eq_nil_iff.mp h.symm
    cases cs with
    | nil => exact ⟨[], .nil, rfl⟩
    | cons c cs => exact absurd (List.append_eq_nil_iff.mp hcs).1 String.utf8EncodeChar_ne_nil
  | cons k ks ih =>
    rw [List.flatten_cons, List.append_eq_append_iff] at h
    rw [List.flatMap_cons]
    rcases h with ⟨q', rfl, hks⟩ | ⟨k', rfl, hcs⟩
    · -- the piece ends inside the character, or at its end
      obtain ⟨ds, hds, htext⟩ := ih (fun b hb => hq b (List.mem_append_right _ hb)) hks
      refine ⟨ds, hds, ?_⟩
      rw [lossy_continues fun b hb => hq b (List.mem_append_left _ hb), htext,
        List.length_append, ← List.replicate_append_replicate, List.append_assoc]
    · rw [lossy_continues_append hq, List.append_assoc]
      rcases encode_eq_append hcs.symm with ⟨as, bs, rfl, rfl, hks⟩ |
        ⟨as, c, bs, p', q', rfl, hcut, rfl, hks⟩
      · obtain ⟨ds, hds, htext⟩ := ih (q := []) (fun b hb => absurd hb List.not_mem_nil) hks
        refine ⟨as ++ ds, hds.append_left as, ?_⟩
        rw [fromUtf8Lossy_encode, htext]
        rfl
      · obtain ⟨ds, hds, htext⟩ := ih hcut.continues hks
        have hlen := hcut.length
        have hp : 0 < p'.length := List.length_pos_iff.mpr hcut.left
        have hq' : 0 < q'.length := List.length_pos_iff.mpr hcut.right
        refine ⟨as ++ (List.replicate (q'.length + 1) '\uFFFD' ++ ds),
          (hds.cut c (q'.length + 1) (by omega) (by omega)).append_left as, ?_⟩
        rw [lossy_encode_append, hcut.lossy, htext, List.replicate_succ]
        simp

theorem exists_pieces_of_replaced (h : Replaced cs ds) :
    ∃ ks : List (List UInt8), ks.flatten = encode cs ∧ ks.flatMap fromUtf8Lossy = ds := by
  induction h with
  | nil => exact ⟨[], rfl, rfl⟩
  | keep c _ ih =>
    obtain ⟨ks, hks, htext⟩ := ih
    refine ⟨encode [c] :: ks, ?_, ?_⟩
    · rw [List.flatten_cons, hks, ← encode_append, List.singleton_append]
    · rw [List.flatMap_cons, fromUtf8Lossy_encode, htext, List.singleton_append]
  | cut c k htwo hle _ ih =>
    obtain ⟨ks, hks, htext⟩ := ih
    obtain ⟨p, q, hcut, hlen⟩ := exists_cut (c := c) (k := c.utf8Size + 1 - k) (by omega) (by omega)
    have hsize := hcut.length
    obtain ⟨j, rfl⟩ : ∃ j, k = j + 1 := ⟨k - 1, by omega⟩
    have hj : q.length = j := by omega
    refine ⟨p :: q :: ks, ?_, ?_⟩
    · rw [List.flatten_cons, List.flatten_cons, hks, ← List.append_assoc, hcut.append, encode_cons]
    · rw [List.flatMap_cons, List.flatMap_cons, hcut.lossy, lossy_continues hcut.continues, htext,
        hj, List.replicate_succ]
      rfl

/-- **The texts lossy decoding makes of the pieces of a text.** -/
theorem replaced_iff : Replaced cs ds ↔
    ∃ ks : List (List UInt8), ks.flatten = encode cs ∧ ks.flatMap fromUtf8Lossy = ds := by
  refine ⟨exists_pieces_of_replaced, ?_⟩
  rintro ⟨ks, hks, rfl⟩
  obtain ⟨ds, hds, htext⟩ :=
    replaced_of_pieces (q := []) (fun b hb => absurd hb List.not_mem_nil) hks
  rw [htext]
  exact hds

/-! ### Strict decoding of pieces -/

/-- What is left when each piece that does not decode is dropped. -/
def fromUtf8OrDrop (bs : List UInt8) : List Char := (fromUtf8 bs).getD []

/-- What strict decoding of the pieces of a text can leave: a dropped run holds a
character that was cut. -/
inductive Leftover : List Char → List Char → Prop
  | nil : Leftover [] []
  | keep {cs ds : List Char} (c : Char) : Leftover cs ds → Leftover (c :: cs) (c :: ds)
  | drop {cs ds : List Char} (run : List Char) : (∃ c ∈ run, 1 < c.utf8Size) → Leftover cs ds →
      Leftover (run ++ cs) ds

theorem Leftover.append_left (h : Leftover cs ds) (as : List Char) :
    Leftover (as ++ cs) (as ++ ds) := by
  induction as with
  | nil => exact h
  | cons a as ih => exact .keep a ih

theorem Leftover.refl (cs : List Char) : Leftover cs cs := by
  simpa using Leftover.nil.append_left cs

/-- A text without a character of several bytes is left as it is. -/
theorem Leftover.eq_of_ascii (h : Leftover cs ds) (hcs : ∀ c ∈ cs, c.utf8Size = 1) : ds = cs := by
  induction h with
  | nil => rfl
  | keep c _ ih => rw [ih fun d hd => hcs d (List.mem_cons_of_mem c hd)]
  | drop run hrun _ _ =>
    obtain ⟨c, hc, hlt⟩ := hrun
    have hone := hcs c (List.mem_append_left _ hc)
    omega

theorem dropped_of_continues (hq : Continues q) (hne : q ≠ []) (bs : List UInt8) :
    fromUtf8OrDrop (q ++ bs) = [] := by
  have hpos : q.length ≠ 0 := fun h => hne (List.length_eq_zero_iff.mp h)
  rw [fromUtf8OrDrop, fromUtf8_eq_none, Option.getD_none]
  rw [scan_continues_append hq]
  exact List.mem_append_left _ (List.mem_replicate.mpr ⟨hpos, rfl⟩)

theorem Cut.dropped (h : Cut c p q) (as : List Char) : fromUtf8OrDrop (encode as ++ p) = [] := by
  rw [fromUtf8OrDrop, fromUtf8_eq_none, Option.getD_none]
  rw [scan_encode_append, h.scan]
  exact List.mem_append_right _ List.mem_cons_self

theorem fromUtf8OrDrop_encode (as : List Char) : fromUtf8OrDrop (encode as) = as := by
  rw [fromUtf8OrDrop, fromUtf8_encode, Option.getD_some]

/-- The pieces of a text from inside a character on.  If there is something left of
the character, a run that follows it goes with it. -/
theorem leftover_of_pieces {ks : List (List UInt8)} (hq : Continues q)
    (h : ks.flatten = q ++ encode cs) :
    ∃ run rest, cs = run ++ rest ∧ (q = [] → run = []) ∧
      Leftover rest (ks.flatMap fromUtf8OrDrop) := by
  induction ks generalizing q cs with
  | nil =>
    obtain ⟨rfl, hcs⟩ := List.append_eq_nil_iff.mp h.symm
    cases cs with
    | nil => exact ⟨[], [], rfl, fun _ => rfl, .nil⟩
    | cons c cs => exact absurd (List.append_eq_nil_iff.mp hcs).1 String.utf8EncodeChar_ne_nil
  | cons k ks ih =>
    rw [List.flatten_cons, List.append_eq_append_iff] at h
    rw [List.flatMap_cons]
    rcases h with ⟨q', rfl, hks⟩ | ⟨k', rfl, hcs⟩
    · obtain ⟨run, rest, hrun, hnil, hleft⟩ :=
        ih (fun b hb => hq b (List.mem_append_right _ hb)) hks
      have hk : fromUtf8OrDrop k = [] := by
        by_cases hne : k = []
        · rw [hne]
          rfl
        · simpa using dropped_of_continues (fun b hb => hq b (List.mem_append_left _ hb)) hne []
      refine ⟨run, rest, hrun, fun h => hnil (List.append_eq_nil_iff.mp h).2, ?_⟩
      rw [hk]
      exact hleft
    · rcases encode_eq_append hcs.symm with ⟨as, bs, rfl, rfl, hks⟩ |
        ⟨as, c, bs, p', q', rfl, hcut, rfl, hks⟩
      · obtain ⟨run, rest, rfl, hnil, hleft⟩ :=
          ih (q := []) (fun b hb => absurd hb List.not_mem_nil) hks
        obtain rfl := hnil rfl
        by_cases hne : q = []
        · subst hne
          refine ⟨[], as ++ rest, rfl, fun _ => rfl, ?_⟩
          rw [List.nil_append, fromUtf8OrDrop_encode]
          exact hleft.append_left as
        · refine ⟨as, rest, rfl, fun h => absurd h hne, ?_⟩
          rw [dropped_of_continues hq hne]
          exact hleft
      · obtain ⟨run, rest, rfl, -, hleft⟩ := ih hcut.continues hks
        by_cases hne : q = []
        · subst hne
          refine ⟨[], as ++ c :: (run ++ rest), rfl, fun _ => rfl, ?_⟩
          rw [List.nil_append, hcut.dropped, List.nil_append,
            show as ++ c :: (run ++ rest) = (as ++ c :: run) ++ rest by simp]
          exact hleft.drop _ ⟨c, by simp, hcut.multibyte⟩
        · refine ⟨as ++ c :: run, rest, by simp, fun h => absurd h hne, ?_⟩
          rw [dropped_of_continues hq hne]
          exact hleft

theorem exists_pieces_of_leftover (h : Leftover cs ds) :
    ∃ ks : List (List UInt8), ks.flatten = encode cs ∧ ks.flatMap fromUtf8OrDrop = ds := by
  induction h with
  | nil => exact ⟨[], rfl, rfl⟩
  | keep c _ ih =>
    obtain ⟨ks, hks, htext⟩ := ih
    refine ⟨encode [c] :: ks, ?_, ?_⟩
    · rw [List.flatten_cons, hks, ← encode_append, List.singleton_append]
    · rw [List.flatMap_cons, fromUtf8OrDrop_encode, htext, List.singleton_append]
  | drop run hrun _ ih =>
    obtain ⟨ks, hks, htext⟩ := ih
    obtain ⟨c, hc, hlt⟩ := hrun
    obtain ⟨as, bs, rfl⟩ := List.append_of_mem hc
    -- one cut inside the character, and both pieces are dropped
    obtain ⟨p, q, hcut, -⟩ := exists_cut (c := c) Nat.one_pos hlt
    refine ⟨(encode as ++ p) :: (q ++ encode bs) :: ks, ?_, ?_⟩
    · rw [List.flatten_cons, List.flatten_cons, hks, encode_append, encode_append, encode_cons,
        ← hcut.append]
      simp only [List.append_assoc]
    · rw [List.flatMap_cons, List.flatMap_cons, hcut.dropped,
        dropped_of_continues hcut.continues hcut.right, htext]
      rfl

/-- **The texts strict decoding leaves of the pieces of a text.** -/
theorem leftover_iff : Leftover cs ds ↔
    ∃ ks : List (List UInt8), ks.flatten = encode cs ∧ ks.flatMap fromUtf8OrDrop = ds := by
  refine ⟨exists_pieces_of_leftover, ?_⟩
  rintro ⟨ks, hks, rfl⟩
  obtain ⟨run, rest, rfl, hnil, hleft⟩ :=
    leftover_of_pieces (q := []) (fun b hb => absurd hb List.not_mem_nil) hks
  rw [hnil rfl]
  exact hleft

end Utf8
