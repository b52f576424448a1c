import Mathlib.Data.Bool.AllAny
import Ra2a.Client.Events

/-!
# Events cut into chunks

The network cuts a response where it likes, also inside a character.  What the two
clients then read is what the blocks say of the text that is left
(`parseSseStream_ok`, `parseRestSseStream_ok`), so a cut inside a line or a
delimiter changes nothing, and one inside a character does.

`streams_cut_iff` says for which responses no cut changes anything.  The JSON-RPC
client drops a chunk that ends inside a character, and the next one with it, so
its response has to be ASCII, or else to say nothing however much of it is
dropped.  The REST client puts replacement characters there, so the data of each
block have to decode to the same with any of their characters replaced.
-/

namespace Ra2a

open Delimited Utf8

/-! ### Replaced characters, block by block -/

/-- A function that carries a relation over, and has an argument for each value
related to its own. -/
structure Carries {α β : Type} (R : α → α → Prop) (S : β → β → Prop) (f : α → β) : Prop where
  forth : ∀ {x x'}, R x x' → S (f x) (f x')
  back : ∀ {x y'}, S (f x) y' → ∃ x', R x x' ∧ f x' = y'

theorem Carries.comp {α β γ : Type} {R : α → α → Prop} {S : β → β → Prop} {T : γ → γ → Prop}
    {f : α → β} {g : β → γ} (hg : Carries S T g) (hf : Carries R S f) : Carries R T (g ∘ f) where
  forth h := hg.forth (hf.forth h)
  back h := by
    obtain ⟨y', hy, hg'⟩ := hg.back h
    obtain ⟨x', hx, rfl⟩ := hf.back hy
    exact ⟨x', hx, hg'⟩

theorem Carries.map {α β : Type} {R : α → α → Prop} {S : β → β → Prop} {f : α → β}
    (hf : Carries R S f) : Carries (List.Forall₂ R) (List.Forall₂ S) (List.map f) where
  forth h := by
    induction h with
    | nil => exact .nil
    | cons h _ ih => exact .cons (hf.forth h) ih
  back {xs ys'} h := by
    induction xs generalizing ys' with
    | nil =>
      cases h
      exact ⟨[], .nil, rfl⟩
    | cons x xs ih =>
      cases h with
      | cons h hs =>
        obtain ⟨x', hx, rfl⟩ := hf.back h
        obtain ⟨xs', hxs, rfl⟩ := ih hs
        exact ⟨x' :: xs', .cons hx hxs, rfl⟩

/-- A list is mapped the same with any of its entries changed if each entry is. -/
theorem filterMap_forall₂_iff {α β : Type} {R : α → α → Prop} (hR : ∀ a, R a a) (g : α → Option β)
    (xs : List α) : (∀ ys, List.Forall₂ R xs ys → ys.filterMap g = xs.filterMap g) ↔
      ∀ x ∈ xs, ∀ y, R x y → g y = g x := by
  constructor
  · intro h x hx y hy
    obtain ⟨as, bs, rfl⟩ := List.append_of_mem hx
    have hrefl : ∀ zs : List α, List.Forall₂ R zs zs :=
      fun zs => List.forall₂_same.mpr fun z _ => hR z
    have heq := h (as ++ y :: bs) (List.rel_append (hrefl as) (.cons hy (hrefl bs)))
    rw [List.filterMap_append, List.filterMap_append, List.append_cancel_left_eq,
      ← List.singleton_append, ← List.singleton_append (l := bs), List.filterMap_append,
      List.filterMap_append, List.append_cancel_right_eq] at heq
    cases hgy : g y <;> cases hgx : g x <;> simp_all
  · intro h ys hys
    induction hys with
    | nil => rfl
    | @cons x y xs ys hy _ ih =>
      rw [List.filterMap_cons, List.filterMap_cons, h x List.mem_cons_self y hy,
        ih fun z hz => h z (List.mem_cons_of_mem x hz)]

variable {b b' cs ds r r' : List Char}

theorem cut_blank_cons (c : Char) (cs : List Char) :
    cut blank (c :: cs) = if c = '\n' ∧ cs.head? = some '\n' then some ([], cs.tail)
      else (cut blank cs).map fun s => (c :: s.1, s.2) := by
  rw [cut]
  cases cs with
  | nil => simp [blank]
  | cons d cs =>
    simp [blank, @eq_comm _ '\n' c, @eq_comm _ '\n' d]

theorem cut_blank_of_ne {c : Char} (hc : c ≠ '\n') (cs : List Char) :
    cut blank (c :: cs) = (cut blank cs).map fun s => (c :: s.1, s.2) := by
  rw [cut_blank_cons, if_neg fun h => hc h.1]

theorem cut_blank_replicate {c : Char} (hc : c ≠ '\n') (k : ℕ) (cs : List Char) :
    cut blank (List.replicate k c ++ cs) =
      (cut blank cs).map fun s => (List.replicate k c ++ s.1, s.2) := by
  induction k with
  | zero => simp
  | succ k ih =>
    rw [List.replicate_succ, List.cons_append, cut_blank_of_ne hc, ih, Option.map_map]
    rfl

/-- The first block of a text with characters replaced is its first block with
characters replaced. -/
theorem cut_replaced (h : Replaced cs ds) :
    match cut blank cs with
    | none => cut blank ds = none
    | some (b, r) => ∃ b' r', cut blank ds = some (b', r') ∧ Replaced b b' ∧ Replaced r r' := by
  induction h with
  | nil => rfl
  | @keep cs ds c h ih =>
    rw [cut_blank_cons, cut_blank_cons]
    by_cases hc : c = '\n' ∧ cs.head? = some '\n'
    · obtain ⟨rfl, hhead⟩ := hc
      obtain ⟨cs, rfl⟩ := List.head?_eq_some_iff.mp hhead
      obtain ⟨ds, rfl, hds⟩ := h.of_cons (by decide)
      rw [if_pos ⟨rfl, hhead⟩, if_pos ⟨rfl, rfl⟩]
      exact ⟨[], ds, rfl, .nil, hds⟩
    · rw [if_neg hc, if_neg]
      · cases hcut : cut blank cs with
        | none =>
          rw [hcut] at ih
          simp only at ih
          simp [ih]
        | some s =>
          rw [hcut] at ih
          obtain ⟨b', r', hds, hb, hr⟩ := ih
          exact ⟨c :: b', r', by rw [hds]; rfl, .keep c hb, hr⟩
      · rintro ⟨rfl, hhead⟩
        exact hc ⟨rfl, (h.head (by decide)).mpr hhead⟩
  | @cut cs ds c k htwo hle h ih =>
    have hc : c ≠ '\n' := by
      rintro rfl
      revert hle
      have : ('\n' : Char).utf8Size = 1 := by decide
      omega
    rw [cut_blank_of_ne hc, cut_blank_replicate (by decide)]
    cases hcut : cut blank cs with
    | none =>
      rw [hcut] at ih
      simp only at ih
      simp [ih]
    | some s =>
      rw [hcut] at ih
      obtain ⟨b', r', hds, hb, hr⟩ := ih
      exact ⟨_ ++ b', r', by rw [hds]; rfl, .cut c k htwo hle hb, hr⟩

theorem head?_append_blank (b r : List Char) :
    (b ++ blank.text ++ r).head? = (b ++ blank.text).head? := by
  cases b <;> rfl

/-- A block with characters replaced is still the first one. -/
theorem cut_of_replaced (h : Replaced b b') (hcut : cut blank (b ++ blank.text ++ r) = some (b, r))
    (r' : List Char) : cut blank (b' ++ blank.text ++ r') = some (b', r') := by
  induction h with
  | nil => exact cut_block rfl List.not_mem_nil r'
  | @keep b b' c h ih =>
    rw [List.cons_append, List.cons_append, cut_blank_cons] at hcut ⊢
    by_cases hc : c = '\n' ∧ (b ++ blank.text ++ r).head? = some '\n'
    · rw [if_pos hc, Option.some.injEq, Prod.mk.injEq] at hcut
      exact absurd hcut.1 (by simp)
    · rw [if_neg hc] at hcut
      obtain ⟨s, hs, heq⟩ := Option.map_eq_some_iff.mp hcut
      obtain ⟨hb, rfl⟩ := Prod.mk.inj heq
      obtain ⟨s₁, s₂⟩ := s
      obtain rfl : s₁ = b := (List.cons.inj hb).2
      rw [if_neg, ih hs]
      · rfl
      · rintro ⟨rfl, hhead⟩
        refine hc ⟨rfl, ?_⟩
        have hR : Replaced (s₁ ++ blank.text) (b' ++ blank.text) := h.append (.refl _)
        rw [head?_append_blank] at hhead ⊢
        exact (hR.head (by decide)).mpr hhead
  | @cut b b' c k htwo hle h ih =>
    have hc : c ≠ '\n' := by
      rintro rfl
      revert hle
      have : ('\n' : Char).utf8Size = 1 := by decide
      omega
    rw [List.cons_append, List.cons_append, cut_blank_of_ne hc] at hcut
    obtain ⟨s, hs, heq⟩ := Option.map_eq_some_iff.mp hcut
    obtain ⟨hb, rfl⟩ := Prod.mk.inj heq
    obtain ⟨s₁, s₂⟩ := s
    obtain rfl : s₁ = b := (List.cons.inj hb).2
    rw [List.append_assoc, List.append_assoc, cut_blank_replicate (by decide), ← List.append_assoc,
      ih hs]
    rfl

/-- The blocks of a text with characters replaced are its blocks with characters
replaced, and these are the blocks of such a text. -/
theorem carries_blocks :
    Carries Replaced (List.Forall₂ Replaced) fun cs => (blocks blank cs).1 where
  forth {cs ds} h := by
    induction hn : cs.length using Nat.strongRecOn generalizing cs ds with
    | ind n ih =>
      have hcut := cut_replaced h
      cases hcs : cut blank cs with
      | none =>
        rw [hcs] at hcut
        rw [blocks_of_none hcs, blocks_of_none hcut]
        exact .nil
      | some s =>
        rw [hcs] at hcut
        obtain ⟨b', r', hds, hb, hr⟩ := hcut
        have hlt := length_of_cut hcs
        rw [blocks_of_some hcs, blocks_of_some hds]
        exact .cons hb (ih _ (by omega) hr rfl)
  back {cs bs'} h := by
    induction hn : cs.length using Nat.strongRecOn generalizing cs bs' with
    | ind n ih =>
      cases hcs : cut blank cs with
      | none =>
        rw [blocks_of_none hcs] at h
        cases h
        exact ⟨cs, .refl cs, by rw [blocks_of_none hcs]⟩
      | some s =>
        obtain ⟨b, r⟩ := s
        have hlt := length_of_cut hcs
        have heq := eq_append_of_cut hcs
        rw [blocks_of_some hcs] at h
        cases h with
        | @cons _ b' _ bs' hb h =>
          obtain ⟨r', hr, hbs⟩ := ih _ (by omega) h rfl
          have hcut := cut_of_replaced hb (heq ▸ hcs) r'
          refine ⟨b' ++ blank.text ++ r', ?_, ?_⟩
          · rw [heq]
            exact (hb.append (.refl _)).append hr
          · rw [blocks_of_some hcut, ← hbs]

/-! ### Lines -/

/-- What stands for a character: itself, or its replacement. -/
def Stands (c : Char) (p : List Char) : Prop :=
  p = [c] ∨ ∃ k, 2 ≤ k ∧ k ≤ c.utf8Size ∧ p = List.replicate k '\uFFFD'

theorem Stands.append {c : Char} {p : List Char} (hp : Stands c p) (h : Replaced cs ds) :
    Replaced (c :: cs) (p ++ ds) := by
  rcases hp with rfl | ⟨k, htwo, hle, rfl⟩
  · exact .keep c h
  · exact .cut c k htwo hle h

theorem exists_stands {c : Char} (h : Replaced (c :: cs) ds) :
    ∃ p ds', ds = p ++ ds' ∧ Stands c p ∧ Replaced cs ds' := by
  cases h with
  | keep _ h => exact ⟨[c], _, rfl, Or.inl rfl, h⟩
  | cut _ k htwo hle h => exact ⟨_, _, rfl, Or.inr ⟨k, htwo, hle, rfl⟩, h⟩

/-- Whether a line ends before `c` and the text after it. -/
def EndsLine (c : Char) (cs : List Char) : Prop := c = '\n' ∨ c = '\r' ∧ cs.head? = some '\n'

theorem EndsLine.of_replaced {c : Char} (h : Replaced cs ds) (hc : ¬ EndsLine c cs) :
    ¬ EndsLine c ds := by
  rw [EndsLine, ← h.head (by decide)]
  exact hc

/-- The cases of `lines`. -/
theorem lines_induction {motive : List Char → Prop} (nil : motive [])
    (newline : ∀ cs, motive cs → motive ('\n' :: cs))
    (return' : ∀ cs, motive cs → motive ('\r' :: '\n' :: cs))
    (char : ∀ c cs, ¬ EndsLine c cs → motive cs → motive (c :: cs)) (cs : List Char) :
    motive cs := by
  have hends : ∀ c cs, (c = '\n' → False) → (∀ cs', c = '\r' → cs = '\n' :: cs' → False) →
      ¬ EndsLine c cs := by
    rintro c cs hn hr (h | ⟨h, hhead⟩)
    · exact hn h
    · obtain ⟨cs', rfl⟩ := List.head?_eq_some_iff.mp hhead
      exact hr cs' h rfl
  induction cs using lines.induct with
  | case1 => exact nil
  | case2 cs ih => exact newline cs ih
  | case3 cs ih => exact return' cs ih
  | case4 c cs hn hr _ ih => exact char c cs (hends c cs hn hr) ih
  | case5 c cs hn hr _ _ _ ih => exact char c cs (hends c cs hn hr) ih

/-- Lines with something put before the first one. -/
def addFront (p : List Char) : List (List Char) → List (List Char)
  | [] => [p]
  | l :: ls => (p ++ l) :: ls

theorem lines_cons {c : Char} (hc : ¬ EndsLine c cs) :
    lines (c :: cs) = addFront [c] (lines cs) := by
  rw [EndsLine, not_or] at hc
  rw [lines.eq_4 c cs hc.1 fun cs' hr hcs => hc.2 ⟨hr, by rw [hcs]; rfl⟩]
  cases lines cs <;> rfl

theorem lines_replicate (k : ℕ) (cs : List Char) :
    lines (List.replicate (k + 1) '\uFFFD' ++ cs) =
      addFront (List.replicate (k + 1) '\uFFFD') (lines cs) := by
  have hc : ∀ cs, ¬ EndsLine '\uFFFD' cs := by
    rintro cs (h | ⟨h, -⟩)
    · revert h
      decide
    · revert h
      decide
  induction k with
  | zero => exact lines_cons (hc cs)
  | succ k ih =>
    rw [List.replicate_succ, List.cons_append, lines_cons (hc _), ih]
    cases lines cs <;> rfl

/-- What stands for a character that ends no line comes before the first line. -/
theorem lines_stands {c : Char} {p : List Char} (hp : Stands c p) (hc : ¬ EndsLine c ds) :
    lines (p ++ ds) = addFront p (lines ds) := by
  rcases hp with rfl | ⟨k, htwo, hle, rfl⟩
  · exact lines_cons hc
  · obtain ⟨j, rfl⟩ : ∃ j, k = j + 1 := ⟨k - 1, by omega⟩
    exact lines_replicate j ds

theorem addFront_replaced {c : Char} {p : List Char} (hp : Stands c p) {ls ls' : List (List Char)}
    (h : List.Forall₂ Replaced ls ls') :
    List.Forall₂ Replaced (addFront [c] ls) (addFront p ls') := by
  cases h with
  | nil => exact .cons (by simpa using hp.append .nil) .nil
  | cons h hs => exact .cons (hp.append h) hs

theorem exists_addFront {c : Char} {ls ms : List (List Char)}
    (h : List.Forall₂ Replaced (addFront [c] ls) ms) :
    ∃ p ls', ms = addFront p ls' ∧ Stands c p ∧ List.Forall₂ Replaced ls ls' := by
  cases ls with
  | nil =>
    obtain ⟨m, ms, hm, hms, rfl⟩ := List.forall₂_cons_left_iff.mp h
    obtain ⟨p, q, rfl, hp, hq⟩ := exists_stands hm
    rw [hq.eq_nil, List.append_nil, List.forall₂_nil_left_iff.mp hms]
    exact ⟨p, [], rfl, hp, .nil⟩
  | cons l ls =>
    obtain ⟨m, ms, hm, hms, rfl⟩ := List.forall₂_cons_left_iff.mp h
    obtain ⟨p, q, rfl, hp, hq⟩ := exists_stands hm
    exact ⟨p, q :: ms, rfl, hp, .cons hq hms⟩

/-- The lines of a text with characters replaced are its lines with characters
replaced, and these are the lines of such a text. -/
theorem carries_lines : Carries Replaced (List.Forall₂ Replaced) lines where
  forth {cs ds} h := by
    induction cs using lines_induction generalizing ds with
    | nil =>
      rw [h.eq_nil]
      exact .nil
    | newline cs ih =>
      obtain ⟨ds, rfl, hds⟩ := h.of_cons (by decide)
      rw [lines, lines]
      exact .cons .nil (ih hds)
    | return' cs ih =>
      obtain ⟨es, rfl, hes⟩ := h.of_cons (by decide)
      obtain ⟨ds, rfl, hds⟩ := hes.of_cons (by decide)
      rw [lines, lines]
      exact .cons .nil (ih hds)
    | char c cs hc ih =>
      obtain ⟨p, ds, rfl, hp, hds⟩ := exists_stands h
      rw [lines_cons hc, lines_stands hp (EndsLine.of_replaced hds hc)]
      exact addFront_replaced hp (ih hds)
  back {cs ms} h := by
    induction cs using lines_induction generalizing ms with
    | nil => exact ⟨[], .nil, (List.forall₂_nil_left_iff.mp h).symm⟩
    | newline cs ih =>
      rw [lines] at h
      obtain ⟨m, ms, hm, hms, rfl⟩ := List.forall₂_cons_left_iff.mp h
      obtain ⟨ds, hds, rfl⟩ := ih hms
      exact ⟨'\n' :: ds, .keep _ hds, by rw [lines, hm.eq_nil]⟩
    | return' cs ih =>
      rw [lines] at h
      obtain ⟨m, ms, hm, hms, rfl⟩ := List.forall₂_cons_left_iff.mp h
      obtain ⟨ds, hds, rfl⟩ := ih hms
      exact ⟨'\r' :: '\n' :: ds, .keep _ (.keep _ hds), by rw [lines, hm.eq_nil]⟩
    | char c cs hc ih =>
      rw [lines_cons hc] at h
      obtain ⟨p, ls', rfl, hp, hls⟩ := exists_addFront h
      obtain ⟨ds, hds, rfl⟩ := ih hls
      exact ⟨p ++ ds, hp.append hds, lines_stands hp (EndsLine.of_replaced hds hc)⟩

/-! ### Data -/

theorem stripPrefix_append (p s : List Char) : stripPrefix p (p ++ s) = some s := by
  rw [stripPrefix, if_pos (List.isPrefixOf_iff_prefix.mpr (List.prefix_append p s)),
    List.drop_left]

theorem eq_append_of_stripPrefix {p s t : List Char} (h : stripPrefix p s = some t) :
    s = p ++ t := by
  rw [stripPrefix] at h
  split_ifs at h with hp
  obtain ⟨u, rfl⟩ := List.isPrefixOf_iff_prefix.mp hp
  rw [List.drop_left] at h
  rw [Option.some.inj h]

/-- A prefix of characters of one byte is stripped before and after. -/
theorem stripPrefix_replaced {p : List Char} (hp : ∀ c ∈ p, c.utf8Size = 1)
    (h : Replaced cs ds) : Option.Rel Replaced (stripPrefix p cs) (stripPrefix p ds) := by
  rw [stripPrefix, stripPrefix, ← h.isPrefixOf hp]
  split_ifs with hpre
  · obtain ⟨t, rfl⟩ := List.isPrefixOf_iff_prefix.mp hpre
    obtain ⟨t', rfl, ht⟩ := Replaced.of_ascii_append hp h
    rw [List.drop_left, List.drop_left]
    exact .some ht
  · exact .none

theorem rel_or {α : Type} {R : α → α → Prop} {o o' p p' : Option α} (h : Option.Rel R o o')
    (h' : Option.Rel R p p') : Option.Rel R (o.or p) (o'.or p') := by
  cases h with
  | some h => exact .some h
  | none => exact h'

theorem ascii_data : ∀ c ∈ "data:".toList, c.utf8Size = 1 :=
  List.all_iff_forall_prop.mp (by decide)

theorem ascii_data_space : ∀ c ∈ "data: ".toList, c.utf8Size = 1 :=
  List.all_iff_forall_prop.mp (by decide)

theorem carries_stripSseDataPrefix :
    Carries Replaced (Option.Rel Replaced) stripSseDataPrefix where
  forth h := by
    rw [stripSseDataPrefix, stripSseDataPrefix]
    exact rel_or (stripPrefix_replaced ascii_data_space h) (stripPrefix_replaced ascii_data h)
  back {line o'} h := by
    rw [stripSseDataPrefix] at h
    cases hspace : stripPrefix "data: ".toList line with
    | some x =>
      rw [hspace] at h
      obtain ⟨x', hx⟩ : ∃ x', o' = some x' ∧ Replaced x x' := by
        cases h with
        | some hx => exact ⟨_, rfl, hx⟩
      refine ⟨"data: ".toList ++ x', ?_, ?_⟩
      · rw [eq_append_of_stripPrefix hspace]
        exact hx.2.append_left _
      · rw [stripSseDataPrefix, stripPrefix_append, hx.1]
        rfl
    | none =>
      rw [hspace, Option.none_or] at h
      cases hdata : stripPrefix "data:".toList line with
      | some x =>
        rw [hdata] at h
        obtain ⟨x', hx⟩ : ∃ x', o' = some x' ∧ Replaced x x' := by
          cases h with
          | some hx => exact ⟨_, rfl, hx⟩
        have hline : Replaced line ("data:".toList ++ x') := by
          rw [eq_append_of_stripPrefix hdata]
          exact hx.2.append_left _
        refine ⟨_, hline, ?_⟩
        have hnone := stripPrefix_replaced ascii_data_space hline
        rw [hspace] at hnone
        rw [stripSseDataPrefix, stripPrefix_append, hx.1]
        cases hs : stripPrefix "data: ".toList ("data:".toList ++ x') with
        | none => rfl
        | some y =>
          rw [hs] at hnone
          cases hnone
      | none =>
        rw [hdata] at h
        refine ⟨line, .refl line, ?_⟩
        rw [stripSseDataPrefix, hspace, hdata]
        cases h
        rfl

theorem Carries.filterMap {α β : Type} {R : α → α → Prop} {S : β → β → Prop} {f : α → Option β}
    (hf : Carries R (Option.Rel S) f) :
    Carries (List.Forall₂ R) (List.Forall₂ S) (List.filterMap f) where
  forth h := by
    induction h with
    | nil => exact .nil
    | @cons x x' xs xs' h _ ih =>
      have hx := hf.forth h
      rw [List.filterMap_cons, List.filterMap_cons]
      cases hfx : f x <;> cases hfx' : f x' <;> rw [hfx, hfx'] at hx <;> cases hx
      · exact ih
      · exact .cons ‹_› ih
  back {xs ys'} h := by
    induction xs generalizing ys' with
    | nil =>
      cases h
      exact ⟨[], .nil, rfl⟩
    | cons x xs ih =>
      rw [List.filterMap_cons] at h
      cases hfx : f x with
      | none =>
        rw [hfx] at h
        have hrel : Option.Rel S (f x) none := by rw [hfx]; exact .none
        obtain ⟨x', hx, hnone⟩ := hf.back hrel
        obtain ⟨xs', hxs, rfl⟩ := ih h
        exact ⟨x' :: xs', .cons hx hxs, by rw [List.filterMap_cons, hnone]⟩
      | some y =>
        rw [hfx] at h
        obtain ⟨y', ys', hy, hys, rfl⟩ := List.forall₂_cons_left_iff.mp h
        have hrel : Option.Rel S (f x) (some y') := by rw [hfx]; exact .some hy
        obtain ⟨x', hx, hsome⟩ := hf.back hrel
        obtain ⟨xs', hxs, rfl⟩ := ih hys
        exact ⟨x' :: xs', .cons hx hxs, by rw [List.filterMap_cons, hsome]⟩

theorem intercalate_cons_cons (l m : List Char) (ls : List (List Char)) :
    ['\n'].intercalate (l :: m :: ls) = l ++ '\n' :: ['\n'].intercalate (m :: ls) := by
  simp [List.intercalate]

theorem intercalate_singleton (l : List Char) : ['\n'].intercalate [l] = l := by
  simp [List.intercalate]

theorem carries_intercalate :
    Carries (List.Forall₂ Replaced) Replaced fun ls => ['\n'].intercalate ls where
  forth h := by
    induction h with
    | nil => exact .nil
    | cons h hs ih =>
      cases hs with
      | nil =>
        rw [intercalate_singleton, intercalate_singleton]
        exact h
      | cons _ _ =>
        rw [intercalate_cons_cons, intercalate_cons_cons]
        exact h.append (.keep _ ih)
  back {ls ds} h := by
    induction ls generalizing ds with
    | nil => exact ⟨[], .nil, h.eq_nil.symm⟩
    | cons l ls ih =>
      cases ls with
      | nil =>
        rw [intercalate_singleton] at h
        exact ⟨[ds], .cons h .nil, intercalate_singleton ds⟩
      | cons m ls =>
        rw [intercalate_cons_cons] at h
        obtain ⟨l', es, rfl, hl, hes⟩ := h.of_append
        obtain ⟨ds, rfl, hds⟩ := hes.of_cons (by decide)
        obtain ⟨ms, hms, rfl⟩ := ih hds
        obtain ⟨m', ms, hm, hms', rfl⟩ := List.forall₂_cons_left_iff.mp hms
        exact ⟨l' :: m' :: ms, .cons hl hms, intercalate_cons_cons l' m' ms⟩

/-- The data of a block with characters replaced are its data with characters
replaced, and these are the data of such a block. -/
theorem carries_restData : Carries Replaced Replaced restData :=
  carries_intercalate.comp (carries_stripSseDataPrefix.filterMap.comp carries_lines)

/-! ### The JSON-RPC client -/

section JsonRpc

variable [Base64] [JsonText] [DecodeError (JsonRpcResponse Event)]

/-- What is read is what the blocks say of the chunks that are UTF-8. -/
theorem parseSseStream_ok (ks : List (List UInt8)) : parseSseStream (ks.map .ok) =
    (blocks blank (ks.flatMap fromUtf8OrDrop)).1.filterMap parseSseMessage := by
  rw [parseSseStream, sseReader_eq, stream_ok, List.nil_append]

theorem parseSseStream_whole (cs : List Char) :
    parseSseStream [.ok (encode cs)] = (blocks blank cs).1.filterMap parseSseMessage := by
  have h := parseSseStream_ok [encode cs]
  rwa [List.flatMap_singleton, fromUtf8OrDrop_encode] at h

theorem parseSseMessage_eq_none : parseSseMessage b = none ↔ sseData b = [] := by
  rw [parseSseMessage]
  cases sseData b with
  | nil => simp
  | cons c cs => simp

theorem filterMap_parseSseMessage (bs : List (List Char)) :
    bs.filterMap parseSseMessage = [] ↔ ∀ b ∈ bs, sseData b = [] := by
  rw [List.filterMap_eq_nil_iff]
  exact forall₂_congr fun b _ => parseSseMessage_eq_none

/-- **When the JSON-RPC client does not see the cuts.** -/
theorem parseSseStream_cut_iff :
    (∀ ks : List (List UInt8), ks.flatten = encode cs →
        parseSseStream (ks.map .ok) = parseSseStream [.ok (encode cs)]) ↔
      (∀ c ∈ cs, c.utf8Size = 1) ∨
        ∀ ds, Leftover cs ds → ∀ b ∈ (blocks blank ds).1, sseData b = [] := by
  constructor
  · intro h
    by_cases hascii : ∀ c ∈ cs, c.utf8Size = 1
    · exact Or.inl hascii
    push Not at hascii
    obtain ⟨c, hc, hne⟩ := hascii
    have hitems : ∀ ds, Leftover cs ds → (blocks blank ds).1.filterMap parseSseMessage =
        (blocks blank cs).1.filterMap parseSseMessage := by
      intro ds hds
      obtain ⟨ks, hks, rfl⟩ := leftover_iff.mp hds
      rw [← parseSseStream_ok, h ks hks, parseSseStream_whole]
    -- a chunk may end inside `c`, and then nothing may be left at all
    have hnil : Leftover cs [] := by
      have hpos : 0 < c.utf8Size := c.utf8Size_pos
      simpa using Leftover.nil.drop cs ⟨c, hc, by omega⟩
    have hempty : (blocks blank []).1.filterMap parseSseMessage = [] := by
      rw [blocks_of_none rfl]
      rfl
    refine Or.inr fun ds hds => ?_
    rw [← filterMap_parseSseMessage, hitems ds hds, ← hitems [] hnil, hempty]
  · rintro h ks hks
    have hleft : Leftover cs (ks.flatMap fromUtf8OrDrop) := leftover_iff.mpr ⟨ks, hks, rfl⟩
    rw [parseSseStream_ok, parseSseStream_whole]
    rcases h with hascii | hdata
    · rw [hleft.eq_of_ascii hascii]
    · rw [(filterMap_parseSseMessage _).mpr (hdata _ hleft),
        (filterMap_parseSseMessage _).mpr (hdata _ (.refl cs))]

end JsonRpc

/-! ### The REST client -/

section Rest

variable [Base64] [JsonText] [DecodeError Event]

theorem parseRestSseStream_ok (ks : List (List UInt8)) : parseRestSseStream (ks.map .ok) =
    (blocks blank (ks.flatMap fromUtf8Lossy)).1.filterMap parseRestMessage := by
  rw [parseRestSseStream, restReader_eq, stream_ok, List.nil_append]

theorem parseRestSseStream_whole (cs : List Char) :
    parseRestSseStream [.ok (encode cs)] = (blocks blank cs).1.filterMap parseRestMessage := by
  have h := parseRestSseStream_ok [encode cs]
  rwa [List.flatMap_singleton, fromUtf8Lossy_encode] at h

/-- What the data of a block are decoded to. -/
def restItem (data : List Char) : Option Item :=
  if data.isEmpty then none else some ((fromStr (String.ofList data)).mapError .other)

/-- The data of the blocks of a text. -/
def restDatas (cs : List Char) : List (List Char) := (blocks blank cs).1.map restData

theorem filterMap_parseRestMessage (cs : List Char) :
    (blocks blank cs).1.filterMap parseRestMessage = (restDatas cs).filterMap restItem := by
  rw [restDatas, List.filterMap_map]
  rfl

theorem restItem_eq_iff (h : Replaced cs ds) : restItem ds = restItem cs ↔
    (fromStr (String.ofList ds) : Except String Event) = fromStr (String.ofList cs) := by
  rw [restItem, restItem, ← h.isEmpty]
  cases hcs : cs.isEmpty with
  | true =>
    rw [List.isEmpty_iff] at hcs
    subst hcs
    rw [h.eq_nil]
    exact iff_of_true rfl rfl
  | false =>
    rw [if_neg Bool.false_ne_true, if_neg Bool.false_ne_true, Option.some.injEq]
    cases (fromStr (String.ofList ds) : Except String Event) <;>
      cases (fromStr (String.ofList cs) : Except String Event) <;> simp [Except.mapError]

/-- **When the REST client does not see the cuts.** -/
theorem parseRestSseStream_cut_iff :
    (∀ ks : List (List UInt8), ks.flatten = encode cs →
        parseRestSseStream (ks.map .ok) = parseRestSseStream [.ok (encode cs)]) ↔
      ∀ b ∈ (blocks blank cs).1, ∀ data, Replaced (restData b) data →
        (fromStr (String.ofList data) : Except String Event) =
          fromStr (String.ofList (restData b)) := by
  have hcarries : Carries Replaced (List.Forall₂ Replaced) restDatas :=
    carries_restData.map.comp carries_blocks
  have hitems : (∀ ks : List (List UInt8), ks.flatten = encode cs →
      parseRestSseStream (ks.map .ok) = parseRestSseStream [.ok (encode cs)]) ↔
        ∀ datas, List.Forall₂ Replaced (restDatas cs) datas →
          datas.filterMap restItem = (restDatas cs).filterMap restItem := by
    simp only [parseRestSseStream_ok, parseRestSseStream_whole, filterMap_parseRestMessage]
    constructor
    · intro h datas hdatas
      obtain ⟨ds, hds, rfl⟩ := hcarries.back hdatas
      obtain ⟨ks, hks, rfl⟩ := replaced_iff.mp hds
      exact h ks hks
    · intro h ks hks
      exact h _ (hcarries.forth (replaced_iff.mpr ⟨ks, hks, rfl⟩))
  rw [hitems, filterMap_forall₂_iff Replaced.refl, restDatas, List.forall_mem_map]
  exact forall₂_congr fun b _ => forall₂_congr fun data hdata => restItem_eq_iff hdata

end Rest

/-- **For which responses it does not matter how they are cut into chunks.** -/
theorem streams_cut_iff [Base64] [JsonText] [DecodeError (JsonRpcResponse Event)]
    [DecodeError Event] (cs : List Char) :
    (∀ ks : List (List UInt8), ks.flatten = encode cs →
        parseSseStream (ks.map .ok) = parseSseStream [.ok (encode cs)] ∧
        parseRestSseStream (ks.map .ok) = parseRestSseStream [.ok (encode cs)]) ↔
      ((∀ c ∈ cs, c.utf8Size = 1) ∨
        ∀ ds, Leftover cs ds → ∀ b ∈ (blocks blank ds).1, sseData b = []) ∧
      ∀ b ∈ (blocks blank cs).1, ∀ data, Replaced (restData b) data →
        (fromStr (String.ofList data) : Except String Event) =
          fromStr (String.ofList (restData b)) := by
  rw [← parseSseStream_cut_iff, ← parseRestSseStream_cut_iff]
  exact ⟨fun h => ⟨fun ks hks => (h ks hks).1, fun ks hks => (h ks hks).2⟩,
    fun h ks hks => ⟨h.1 ks hks, h.2 ks hks⟩⟩

/-! ### A character cut in two -/

def saysEvent (t : String) : Event := partEvent (.text t)

theorem depth_saysEvent [Base64] (t : String) : (serialize (saysEvent t)).depth = 4 := by
  rw [saysEvent, serialize_partEvent]
  rfl

/-- The text of the envelope, and of the bare event, before what is said and after it. -/
def sseBefore : String :=
  "\"id\":\"1\",\"jsonrpc\":\"2.0\",\"result\":\x7b\"message\":\x7b\"messageId\":\"m1\"," ++
    "\"parts\":[\x7b\"text\":\""

def sseAfter : String := "\"\x7d],\"role\":\"ROLE_AGENT\"\x7d\x7d"

def restBefore : String :=
  "\"message\":\x7b\"messageId\":\"m1\",\"role\":\"ROLE_AGENT\",\"parts\":[\x7b\"text\":\""

def restAfter : String := "\"\x7d]\x7d"

/-- The values that are sent below or read, each with its text. -/
def saidTexts [Base64] : List (Json × String) :=
  [(sseEnvelope (.string "1") (.ok (saysEvent "é")), braced (sseBefore ++ "é" ++ sseAfter)),
    (serialize (saysEvent "é"), braced (restBefore ++ "é" ++ restAfter)),
    (serialize (saysEvent "\uFFFD\uFFFD"), braced (restBefore ++ "\uFFFD\uFFFD" ++ restAfter))]

theorem nodup_saidTexts [Base64] : (saidTexts.map (·.1)).Nodup := by
  have hserialize := fun t => serialize_partEvent (.text t)
  simp only [saidTexts, List.map_cons, List.map_nil, sseEnvelope_ok, saysEvent, hserialize]
  simp [PartContent.field, field, SortedMap.ofEntries, serialize]

theorem legible_saidTexts [Base64] {e : Json × String} (he : e ∈ saidTexts) :
    @JsonText.Legible (tableText saidTexts) e.1 := by
  refine legible_tableText nodup_saidTexts ?_ ?_ he
  · show [braced (sseBefore ++ "é" ++ sseAfter), braced (restBefore ++ "é" ++ restAfter),
      braced (restBefore ++ "\uFFFD\uFFFD" ++ restAfter)].Nodup
    decide +kernel
  · simp only [saidTexts, List.forall_mem_cons]
    refine ⟨braces_braced ?_, braces_braced ?_, braces_braced ?_, by simp⟩ <;> decide +kernel

/-- A line of data that says something. -/
def saidLine (before said after : String) : List Char :=
  "data: ".toList ++ (braced (before ++ said ++ after)).toList

/-- The line that says `é`, cut after the first byte of it. -/
def cutLine (before after : String) : List (List UInt8) :=
  [encode (("data: ".toList ++ "\x7b".toList) ++ before.toList) ++ [0xC3],
    [0xA9] ++ encode (after.toList ++ ("\x7d".toList ++ blank.text))]

theorem cut_said : Cut 'é' [0xC3] [0xA9] := ⟨by decide, by simp, by simp⟩

theorem saidLine_append (before said after : String) : saidLine before said after ++ blank.text =
    ("data: ".toList ++ "\x7b".toList) ++ before.toList ++ said.toList ++
      (after.toList ++ ("\x7d".toList ++ blank.text)) := by
  unfold saidLine braced
  -- a literal is tried as an append, which takes long
  generalize "data: " = label
  generalize "\x7b" = opening
  generalize "\x7d" = closing
  simp only [String.toList_append, List.append_assoc]

theorem flatten_cutLine (before after : String) :
    (cutLine before after).flatten = encode (saidLine before "é" after ++ blank.text) := by
  rw [saidLine_append, encode_append, encode_append]
  have hsaid : encode "é".toList = [0xC3, 0xA9] := by decide
  rw [hsaid, cutLine]
  simp

theorem filterMap_blocks_line {β : Type} (parse : List Char → Option β) {line : List Char}
    (h : '\n' ∉ line) :
    (blocks blank (line ++ blank.text)).1.filterMap parse = (parse line).toList := by
  have hblocks := blocks_flatMap [()] (fun _ => line) fun _ _ => h
  rw [List.flatMap_singleton] at hblocks
  rw [hblocks, List.map_singleton]
  cases hp : parse line <;> simp [hp]

/-- A line that says something is read as what it says. -/
theorem parseSseMessage_saidLine :
    letI := byteChars
    letI := tableText saidTexts
    letI := tooDeep (JsonRpcResponse Event)
    parseSseMessage (saidLine sseBefore "é" sseAfter) = some (.ok (saysEvent "é")) := by
  let := byteChars
  let := tableText saidTexts
  let := tooDeep (JsonRpcResponse Event)
  have := lawful_byteChars
  have hmem : (sseEnvelope (.string "1") (.ok (saysEvent "é")),
      braced (sseBefore ++ "é" ++ sseAfter)) ∈ saidTexts := List.mem_cons_self
  have hprint : JsonText.print (sseEnvelope (.string "1") (.ok (saysEvent "é"))) =
      some (braced (sseBefore ++ "é" ++ sseAfter)) := print_tableText nodup_saidTexts hmem
  have hdata : sseItemData (.string "1") (.ok (saysEvent "é")) =
      (braced (sseBefore ++ "é" ++ sseAfter)).toList := by
    rw [sseItemData, hprint, Option.getD_some]
  have hlegible : JsonText.Legible (sseEnvelope (.string "1") (.ok (saysEvent "é"))) :=
    legible_saidTexts hmem
  have hitem := parseSseMessage_item hlegible
  have hdepth : (sseEnvelope (.string "1") (.ok (saysEvent "é"))).depth ≤ recursionLimit := by
    rw [depth_sseEnvelope, depth_saysEvent]
    decide
  rwa [hdata, received, if_pos hdepth] at hitem

theorem parseRestMessage_saidLine {t : String} :
    letI := byteChars
    letI := tableText saidTexts
    letI := tooDeep Event
    (serialize (saysEvent t), braced (restBefore ++ t ++ restAfter)) ∈ saidTexts →
      parseRestMessage (saidLine restBefore t restAfter) = some (.ok (saysEvent t)) := by
  let := byteChars
  let := tableText saidTexts
  let := tooDeep Event
  have := lawful_byteChars
  intro hmem
  have hprint : JsonText.print (serialize (saysEvent t)) =
      some (braced (restBefore ++ t ++ restAfter)) := print_tableText nodup_saidTexts hmem
  have hdata : restEventData (saysEvent t) = (braced (restBefore ++ t ++ restAfter)).toList := by
    rw [restEventData, toText, hprint, Option.getD_some]
  have hlegible : JsonText.Legible (serialize (saysEvent t)) := legible_saidTexts hmem
  have hitem := parseRestMessage_item hlegible
  have hdepth : (serialize (saysEvent t)).depth ≤ recursionLimit := by
    rw [depth_saysEvent]
    decide
  rwa [hdata, restReceived, if_pos hdepth] at hitem

/-- **A character cut in two** takes the event with it in the JSON-RPC client, and is
two other characters in the REST client. -/
theorem cutCharacter_lost :
    letI := byteChars
    letI := tableText saidTexts
    letI := tooDeep (JsonRpcResponse Event)
    letI := tooDeep Event
    (parseSseStream ((cutLine sseBefore sseAfter).map .ok) = [] ∧
      parseSseStream [.ok (cutLine sseBefore sseAfter).flatten] = [.ok (saysEvent "é")]) ∧
    parseRestSseStream ((cutLine restBefore restAfter).map .ok) =
        [.ok (saysEvent "\uFFFD\uFFFD")] ∧
      parseRestSseStream [.ok (cutLine restBefore restAfter).flatten] = [.ok (saysEvent "é")] := by
  let := byteChars
  let := tableText saidTexts
  let := tooDeep (JsonRpcResponse Event)
  let := tooDeep Event
  have hcut := cut_said
  refine ⟨⟨?_, ?_⟩, ?_, ?_⟩
  · have hdropped : (cutLine sseBefore sseAfter).flatMap fromUtf8OrDrop = [] := by
      rw [cutLine, List.flatMap_cons, List.flatMap_singleton, hcut.dropped,
        dropped_of_continues hcut.continues hcut.right]
      rfl
    rw [parseSseStream_ok, hdropped, blocks_of_none rfl]
    rfl
  · rw [flatten_cutLine, parseSseStream_whole, filterMap_blocks_line _ (by decide +kernel),
      parseSseMessage_saidLine]
    rfl
  · have hlossy : (cutLine restBefore restAfter).flatMap fromUtf8Lossy =
        saidLine restBefore "\uFFFD\uFFFD" restAfter ++ blank.text := by
      rw [cutLine, List.flatMap_cons, List.flatMap_singleton, lossy_encode_append, hcut.lossy,
        lossy_continues_append hcut.continues, fromUtf8Lossy_encode, saidLine_append]
      simp
    rw [parseRestSseStream_ok, hlossy, filterMap_blocks_line _ (by decide +kernel),
      parseRestMessage_saidLine (by simp [saidTexts])]
    rfl
  · rw [flatten_cutLine, parseRestSseStream_whole, filterMap_blocks_line _ (by decide +kernel),
      parseRestMessage_saidLine (by simp [saidTexts])]
    rfl

end Ra2a
