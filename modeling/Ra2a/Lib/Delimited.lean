import Mathlib.Data.List.Basic

/-!
# Delimited blocks

A buffer is a list of blocks, each ended by a delimiter, and a rest in which no
delimiter stands.  A reader takes the blocks off its front, one at a time, and
skips those that say nothing.

Input that comes in pieces is read the same way: a piece is added at the end of
the buffer, and the blocks that are complete are taken off.  Where the cuts fall
does not matter (`stream_ok`), because what is taken off the front of a buffer
does not depend on what is added to its end (`cut_append`).
-/

namespace Delimited

universe u v w

/-- A delimiter is not empty. -/
structure Delimiter (α : Type u) where
  text : List α
  ne_nil : text ≠ []

variable {α : Type u} {β : Type v} {γ : Type w} {ε : Type} [DecidableEq α] {d : Delimiter α}

/-- The buffer before the first delimiter and after it. -/
def cut (d : Delimiter α) : List α → Option (List α × List α)
  | [] => none
  | x :: xs =>
    if d.text.isPrefixOf (x :: xs) then some ([], (x :: xs).drop d.text.length)
    else (cut d xs).map fun s => (x :: s.1, s.2)

variable {xs ys b r : List α}

theorem eq_append_of_cut (h : cut d xs = some (b, r)) : xs = b ++ d.text ++ r := by
  induction xs generalizing b with
  | nil => cases h
  | cons x xs ih =>
    rw [cut] at h
    split_ifs at h with hd
    · obtain ⟨t, ht⟩ := List.isPrefixOf_iff_prefix.mp hd
      rw [← ht, List.drop_left, Option.some.injEq, Prod.mk.injEq] at h
      obtain ⟨rfl, rfl⟩ := h
      exact ht.symm
    · obtain ⟨s, hs, heq⟩ := Option.map_eq_some_iff.mp h
      obtain ⟨rfl, rfl⟩ := Prod.mk.inj heq
      rw [ih hs]
      rfl

/-- What is left is shorter. -/
theorem length_of_cut (h : cut d xs = some (b, r)) : r.length < xs.length := by
  have hpos : 0 < d.text.length := List.length_pos_iff.mpr d.ne_nil
  rw [eq_append_of_cut h, List.length_append, List.length_append]
  omega

/-- **The first delimiter stays the first one** when the buffer grows at its end. -/
theorem cut_append (h : cut d xs = some (b, r)) (ys : List α) :
    cut d (xs ++ ys) = some (b, r ++ ys) := by
  induction xs generalizing b with
  | nil => cases h
  | cons x xs ih =>
    have hxs := eq_append_of_cut h
    rw [cut] at h
    rw [List.cons_append, cut]
    split_ifs at h with hd
    · obtain ⟨t, ht⟩ := List.isPrefixOf_iff_prefix.mp hd
      rw [← ht, List.drop_left, Option.some.injEq, Prod.mk.injEq] at h
      obtain ⟨rfl, rfl⟩ := h
      have hd' : d.text.isPrefixOf (x :: (xs ++ ys)) = true := by
        rw [List.isPrefixOf_iff_prefix, ← List.cons_append, ← ht, List.append_assoc]
        exact List.prefix_append _ _
      rw [if_pos hd', ← List.cons_append, ← ht, List.append_assoc, List.drop_left]
    · obtain ⟨s, hs, heq⟩ := Option.map_eq_some_iff.mp h
      obtain ⟨rfl, rfl⟩ := Prod.mk.inj heq
      have hd' : ¬ d.text.isPrefixOf (x :: (xs ++ ys)) = true := by
        intro hpre
        -- there is a whole delimiter further on, so this one ends before the new text
        have hlen : d.text.length ≤ (x :: xs).length := by
          rw [hxs, List.length_append, List.length_append]
          omega
        rw [List.isPrefixOf_iff_prefix, ← List.cons_append] at hpre
        rw [List.isPrefixOf_iff_prefix] at hd
        exact hd (List.prefix_of_prefix_length_le hpre (List.prefix_append _ _) hlen)
      rw [if_neg hd', ih hs]
      rfl

/-- A block in which the delimiter does not begin is cut off whole. -/
theorem cut_block {x : α} {t : List α} (hd : d.text = x :: t) (hb : x ∉ b) (r : List α) :
    cut d (b ++ d.text ++ r) = some (b, r) := by
  induction b with
  | nil =>
    rw [List.nil_append, hd, List.cons_append, cut, if_pos, ← List.cons_append, ← hd,
      List.drop_left]
    rw [List.isPrefixOf_iff_prefix, ← List.cons_append, ← hd]
    exact List.prefix_append _ _
  | cons y b ih =>
    have hne : x ≠ y := fun h => hb (h ▸ List.mem_cons_self)
    have hmem : x ∉ b := fun h => hb (List.mem_cons_of_mem y h)
    rw [List.cons_append, List.cons_append, cut, if_neg, ih hmem]
    · rfl
    · rw [hd, List.isPrefixOf_iff_prefix, List.cons_prefix_cons]
      exact fun h => hne h.1

/-! ### Blocks -/

/-- The complete blocks of a buffer, and what comes after them. -/
def blocks (d : Delimiter α) (buf : List α) : List (List α) × List α :=
  match _h : cut d buf with
  | none => ([], buf)
  | some (b, r) =>
    let s := blocks d r
    (b :: s.1, s.2)
termination_by buf.length
decreasing_by exact length_of_cut _h

theorem blocks_of_none (h : cut d xs = none) : blocks d xs = ([], xs) := by
  rw [blocks]
  split
  · rfl
  · next hs => exact absurd (h ▸ hs) (by simp)

theorem blocks_of_some (h : cut d xs = some (b, r)) :
    blocks d xs = (b :: (blocks d r).1, (blocks d r).2) := by
  rw [blocks]
  split
  · next hn => exact absurd (h ▸ hn) (by simp)
  · next hs =>
    obtain ⟨rfl, rfl⟩ := Prod.mk.inj (Option.some.inj (h.symm.trans hs))
    rfl

/-- **Blocks come off the front**: what is added to a buffer adds to its rest. -/
theorem blocks_append (xs ys : List α) :
    blocks d (xs ++ ys) =
      ((blocks d xs).1 ++ (blocks d ((blocks d xs).2 ++ ys)).1,
        (blocks d ((blocks d xs).2 ++ ys)).2) := by
  induction hn : xs.length using Nat.strongRecOn generalizing xs with
  | ind n ih =>
    cases hcut : cut d xs with
    | none => rw [blocks_of_none hcut, List.nil_append]
    | some s =>
      obtain ⟨b, r⟩ := s
      have hlt := length_of_cut hcut
      rw [blocks_of_some (cut_append hcut ys), blocks_of_some hcut, ih r.length (by omega) r rfl]
      rfl

/-! ### Reading -/

variable (parse : List α → Option β)

/-- The first block that says something is read, and those before it are skipped. -/
def next (d : Delimiter α) (buf : List α) : Option β × List α :=
  match _h : cut d buf with
  | none => (none, buf)
  | some (b, r) =>
    match parse b with
    | some item => (some item, r)
    | none => next d r
termination_by buf.length
decreasing_by exact length_of_cut _h

theorem next_of_none (h : cut d xs = none) : next parse d xs = (none, xs) := by
  rw [next]
  split
  · rfl
  · next hs => exact absurd (h ▸ hs) (by simp)

theorem next_of_some (h : cut d xs = some (b, r)) :
    next parse d xs = match parse b with
      | some item => (some item, r)
      | none => next parse d r := by
  rw [next]
  split
  · next hn => exact absurd (h ▸ hn) (by simp)
  · next hs =>
    obtain ⟨rfl, rfl⟩ := Prod.mk.inj (Option.some.inj (h.symm.trans hs))
    rfl

/-- What is read is the first thing the blocks say, and the rest of what they say
is still there. -/
theorem next_spec (buf : List α) :
    match next parse d buf with
    | (some item, buf') => buf'.length < buf.length ∧
        (blocks d buf).1.filterMap parse = item :: (blocks d buf').1.filterMap parse ∧
        (blocks d buf').2 = (blocks d buf).2
    | (none, buf') => (blocks d buf).1.filterMap parse = [] ∧ buf' = (blocks d buf).2 := by
  induction hn : buf.length using Nat.strongRecOn generalizing buf with
  | ind n ih =>
    cases hcut : cut d buf with
    | none =>
      rw [next_of_none parse hcut, blocks_of_none hcut]
      exact ⟨rfl, rfl⟩
    | some s =>
      obtain ⟨b, r⟩ := s
      have hlt := length_of_cut hcut
      rw [next_of_some parse hcut, blocks_of_some hcut, List.filterMap_cons]
      cases hb : parse b with
      | some item => exact ⟨by omega, rfl, rfl⟩
      | none =>
        have ih := ih r.length (by omega) r rfl
        simp only
        rcases hnext : next parse d r with ⟨_ | item, buf'⟩
        · rw [hnext] at ih
          exact ih
        · rw [hnext] at ih
          exact ⟨by have := ih.1; omega, ih.2.1, ih.2.2⟩

theorem next_none {buf' : List α} (h : next parse d xs = (none, buf')) :
    (blocks d xs).1.filterMap parse = [] ∧ buf' = (blocks d xs).2 := by
  have hspec := next_spec (d := d) parse xs
  rwa [h] at hspec

theorem next_some {buf' : List α} {item : β} (h : next parse d xs = (some item, buf')) :
    buf'.length < xs.length ∧
      (blocks d xs).1.filterMap parse = item :: (blocks d buf').1.filterMap parse ∧
      (blocks d buf').2 = (blocks d xs).2 := by
  have hspec := next_spec (d := d) parse xs
  rwa [h] at hspec

/-- A reader: what it reads off the front of a buffer, and the buffer after it, which is
shorter when something is read. -/
structure Reader (α : Type u) (β : Type v) where
  read : List α → Option β × List α
  shorter : ∀ {buf buf' : List α} {item : β}, read buf = (some item, buf') →
    buf'.length < buf.length

/-- The reader of the blocks that say something. -/
def byBlocks (d : Delimiter α) : Reader α β := ⟨next parse d, fun h => (next_some parse h).1⟩

/-- Reading until there is nothing to read. -/
def drain (R : Reader α β) (buf : List α) : List β × List α :=
  match _h : R.read buf with
  | (none, buf') => ([], buf')
  | (some item, buf') =>
    let s := drain R buf'
    (item :: s.1, s.2)
termination_by buf.length
decreasing_by exact R.shorter _h

/-- **Reading ends, with everything the blocks say and nothing left but the rest.** -/
theorem drain_eq (buf : List α) :
    drain (byBlocks parse d) buf = ((blocks d buf).1.filterMap parse, (blocks d buf).2) := by
  induction hn : buf.length using Nat.strongRecOn generalizing buf with
  | ind n ih =>
    rw [drain]
    split
    · next buf' h =>
      obtain ⟨hnil, rfl⟩ := next_none parse h
      rw [hnil]
    · next item buf' h =>
      obtain ⟨hlt, hcons, hrest⟩ := next_some parse h
      rw [ih buf'.length (by omega) buf' rfl, hcons, hrest]

/-! ### Reading what comes in pieces -/

variable (decode : List γ → List α) (failed : ε → β)

/-- What a reader gives while the pieces come in: a piece is asked for when there is
nothing to read. -/
def stream (R : Reader α β) (pieces : List (Except ε (List γ))) (buf : List α) : List β :=
  match _h : R.read buf with
  | (some item, buf') => item :: stream R pieces buf'
  | (none, buf') =>
    match pieces with
    | [] => []
    | .ok k :: ks => stream R ks (buf' ++ decode k)
    | .error e :: ks => failed e :: stream R ks buf'
termination_by (pieces.length, buf.length)
decreasing_by
  · exact Prod.Lex.right _ (R.shorter _h)
  · exact Prod.Lex.left _ _ (Nat.lt_succ_self _)
  · exact Prod.Lex.left _ _ (Nat.lt_succ_self _)

/-- What is in the buffer is read before the next piece is asked for. -/
theorem stream_eq_append (pieces : List (Except ε (List γ))) (buf : List α) :
    stream decode failed (byBlocks parse d) pieces buf = (blocks d buf).1.filterMap parse ++
      match pieces with
      | [] => []
      | .ok k :: ks => stream decode failed (byBlocks parse d) ks ((blocks d buf).2 ++ decode k)
      | .error e :: ks =>
        failed e :: stream decode failed (byBlocks parse d) ks (blocks d buf).2 := by
  induction hn : buf.length using Nat.strongRecOn generalizing buf with
  | ind n ih =>
    rw [stream]
    split
    · next item buf' h =>
      obtain ⟨hlt, hcons, hrest⟩ := next_some parse h
      rw [ih buf'.length (by omega) buf' rfl, hcons, hrest]
      rfl
    · next buf' h =>
      obtain ⟨hnil, rfl⟩ := next_none parse h
      rw [hnil, List.nil_append]

/-- **Where the input is cut does not matter**: what is read is what the blocks of
the decoded pieces say, laid end to end. -/
theorem stream_ok (ks : List (List γ)) (buf : List α) :
    stream decode failed (byBlocks parse d) (ks.map .ok) buf =
      (blocks d (buf ++ ks.flatMap decode)).1.filterMap parse := by
  induction ks generalizing buf with
  | nil =>
    rw [stream_eq_append, List.flatMap_nil, List.append_nil]
    exact List.append_nil _
  | cons k ks ih =>
    rw [stream_eq_append, blocks_append, List.filterMap_append, List.flatMap_cons,
      ← List.append_assoc, ← ih]
    rfl

end Delimited
