import Mathlib.Data.List.Sort
import Mathlib.Data.Prod.Lex

/-!
# The best that succeeds

Candidates that have a rank and a place are attempted one after another, the best rank
first and those of one rank in their order, till an attempt is successful.  An attempt may
change a state, and may do what the state lets it do.

A stable sort by the rank puts the candidates in the order of rank and place
(`pairwise_mergeSort_lex`).  In a list that is in such an order the first success is
the least candidate that succeeds when its turn comes (`least_of_first`), and there is none
exactly when no candidate succeeds (`first_error_iff`).
-/

namespace FirstBest

universe u v w

/-! ### A stable sort -/

section Stable

variable {α : Type u} {κ : Type v} [LinearOrder κ] (key : α → κ) {l : List α}

theorem le_trans_key (a b c : α) (hab : decide (key a ≤ key b)) (hbc : decide (key b ≤ key c)) :
    decide (key a ≤ key c) :=
  decide_eq_true ((of_decide_eq_true hab).trans (of_decide_eq_true hbc))

theorem le_total_key (a b : α) : decide (key a ≤ key b) || decide (key b ≤ key a) := by
  rw [Bool.or_eq_true, decide_eq_true_eq, decide_eq_true_eq]
  exact le_total (key a) (key b)

theorem pairwise_mergeSort_key (l : List α) :
    (l.mergeSort fun a b => key a ≤ key b).Pairwise fun a b => key a ≤ key b :=
  (List.pairwise_mergeSort (le_trans_key key) (le_total_key key) l).imp of_decide_eq_true

/-- **Those of one rank stay in their order.** -/
theorem filter_mergeSort (k : κ) (l : List α) :
    (l.mergeSort fun a b => key a ≤ key b).filter (key · = k) = l.filter (key · = k) := by
  have hk : ∀ a ∈ l.filter (key · = k), key a = k := by
    intro a ha
    exact of_decide_eq_true (List.mem_filter.mp ha).2
  have hsame : (l.filter (key · = k)).Pairwise fun a b => decide (key a ≤ key b) :=
    List.pairwise_of_forall_mem_list fun a ha b hb =>
      decide_eq_true ((hk a ha).trans (hk b hb).symm).le
  have hsub : (l.filter (key · = k)).Sublist (l.mergeSort fun a b => key a ≤ key b) :=
    List.sublist_mergeSort (le_trans_key key) (le_total_key key) hsame List.filter_sublist
  have hfilter : (l.filter (key · = k)).Sublist
      ((l.mergeSort fun a b => key a ≤ key b).filter (key · = k)) := by
    have hboth := hsub.filter (key · = k)
    rwa [List.filter_filter, List.filter_congr fun a _ => Bool.and_self _] at hboth
  refine (hfilter.eq_of_length ?_).symm
  exact ((List.mergeSort_perm l _).symm.filter _).length_eq

/-- **A stable sort by the rank is a sort by rank and place.** -/
theorem pairwise_mergeSort_lex {pos : α → ℕ} (hpos : l.Pairwise fun a b => pos a < pos b) :
    (l.mergeSort fun a b => key a ≤ key b).Pairwise
      fun a b => toLex (key a, pos a) < toLex (key b, pos b) := by
  rw [List.pairwise_iff_forall_sublist]
  intro a b hab
  rw [Prod.Lex.toLex_lt_toLex']
  refine ⟨List.pairwise_iff_forall_sublist.mp (pairwise_mergeSort_key key l) hab, fun heq => ?_⟩
  -- Two of one rank are in the list as they are in the sorted one.
  have hpair : [a, b].filter (key · = key b) = [a, b] := by
    simp [show key a = key b from heq]
  have hsub := hab.filter (key · = key b)
  rw [hpair, filter_mergeSort] at hsub
  exact List.pairwise_iff_forall_sublist.mp hpos (hsub.trans List.filter_sublist)

end Stable

/-! ### Attempts -/

section Attempts

variable {α : Type u} {β ε : Type v} {σ : Type w} (attempt : α → σ → Except ε β × σ)

/-- The first success, or every failure in turn. -/
def first : List α → σ → Except (List ε) (α × β) × σ
  | [], s => (.error [], s)
  | a :: as, s =>
    match attempt a s with
    | (.ok b, s') => (.ok (a, b), s')
    | (.error e, s') =>
      match first as s' with
      | (.ok r, s'') => (.ok r, s'')
      | (.error es, s'') => (.error (e :: es), s'')

variable {attempt} {l : List α} {a : α} {s s' : σ}

theorem first_of_ok {b : β} (h : attempt a s = (.ok b, s')) :
    first attempt (a :: l) s = (.ok (a, b), s') := by
  rw [first, h]

theorem first_of_error {e : ε} (h : attempt a s = (.error e, s')) :
    first attempt (a :: l) s =
      match first attempt l s' with
      | (.ok r, s'') => (.ok r, s'')
      | (.error es, s'') => (.error (e :: es), s'') := by
  rw [first, h]

variable (attempt)

/-- The state that attempts of a whole list leave. -/
def after (s : σ) (l : List α) : σ := l.foldl (fun s a => (attempt a s).2) s

variable [DecidableEq α]

/-- The state in which it is the turn of a candidate, if none before it succeeds. -/
def turn (s : σ) (l : List α) (a : α) : σ := after attempt s (l.takeWhile (· ≠ a))

/-- A candidate succeeds when its turn comes. -/
def Succeeds (s : σ) (l : List α) (a : α) : Prop :=
  ∃ b s', attempt a (turn attempt s l a) = (.ok b, s')

variable {attempt} {c : α}

theorem turn_head : turn attempt s (a :: l) a = s := by
  rw [turn, List.takeWhile_cons_of_neg (by simp)]
  rfl

theorem turn_tail (h : c ≠ a) : turn attempt s (c :: l) a = turn attempt (attempt c s).2 l a := by
  rw [turn, List.takeWhile_cons_of_pos (by simpa using h)]
  rfl

theorem succeeds_tail_iff (h : c ≠ a) :
    Succeeds attempt s (c :: l) a ↔ Succeeds attempt (attempt c s).2 l a := by
  rw [Succeeds, turn_tail h, Succeeds]

/-- **The first success is the least candidate that succeeds in its turn**, and nothing is
attempted after it. -/
theorem least_of_first {κ : Type*} [Preorder κ] {key : α → κ} {b : β}
    (hl : l.Pairwise fun a b => key a < key b) (h : first attempt l s = (.ok (a, b), s')) :
    a ∈ l ∧ attempt a (turn attempt s l a) = (.ok b, s') ∧
      ∀ c ∈ l, Succeeds attempt s l c → key a ≤ key c := by
  induction l generalizing s with
  | nil => cases h
  | cons x l ih =>
    rw [List.pairwise_cons] at hl
    rcases hx : attempt x s with ⟨e | b', s₁⟩
    · rw [first_of_error hx] at h
      rcases hrest : first attempt l s₁ with ⟨es | r, s₂⟩
      · rw [hrest] at h
        cases h
      · rw [hrest] at h
        cases h
        obtain ⟨ha, hturn, hleast⟩ := ih hl.2 hrest
        have hne : ∀ c ∈ l, x ≠ c := fun c hc heq => lt_irrefl _ (heq ▸ hl.1 c hc)
        refine ⟨List.mem_cons_of_mem _ ha, ?_, fun c hc hsucc => ?_⟩
        · rw [turn_tail (hne a ha), hx]
          exact hturn
        · rcases List.mem_cons.mp hc with rfl | hc
          · obtain ⟨b', s'', hok⟩ := hsucc
            rw [turn_head, hx] at hok
            cases hok
          · rw [succeeds_tail_iff (hne c hc), hx] at hsucc
            exact hleast c hc hsucc
    · rw [first_of_ok hx] at h
      cases h
      refine ⟨List.mem_cons_self, by rw [turn_head, hx], fun c hc _ => ?_⟩
      rcases List.mem_cons.mp hc with rfl | hc
      · exact le_rfl
      · exact (hl.1 c hc).le

/-- **There is no success exactly if** no candidate succeeds in its turn. -/
theorem first_error_iff (hl : l.Nodup) :
    (∃ es s', first attempt l s = (.error es, s')) ↔ ∀ a ∈ l, ¬ Succeeds attempt s l a := by
  induction l generalizing s with
  | nil => exact iff_of_true ⟨[], s, rfl⟩ (by simp)
  | cons x l ih =>
    rw [List.nodup_cons] at hl
    have hne : ∀ c ∈ l, x ≠ c := fun c hc heq => hl.1 (heq ▸ hc)
    rw [List.forall_mem_cons]
    rcases hx : attempt x s with ⟨e | b, s₁⟩
    · have hfails : ¬ Succeeds attempt s (x :: l) x := by
        rintro ⟨b, s', hok⟩
        rw [turn_head, hx] at hok
        cases hok
      have htail : (∀ c ∈ l, ¬ Succeeds attempt s (x :: l) c) ↔
          ∀ c ∈ l, ¬ Succeeds attempt s₁ l c := by
        refine forall₂_congr fun c hc => ?_
        rw [succeeds_tail_iff (hne c hc), hx]
      rw [htail, ← ih hl.2, first_of_error hx, and_iff_right hfails]
      rcases first attempt l s₁ with ⟨es | r, s₂⟩
      · exact iff_of_true ⟨e :: es, s₂, rfl⟩ ⟨es, s₂, rfl⟩
      · exact iff_of_false (by rintro ⟨es, s', h⟩; cases h) (by rintro ⟨es, s', h⟩; cases h)
    · refine iff_of_false ?_ fun h => h.1 ⟨b, s₁, by rw [turn_head, hx]⟩
      rintro ⟨es, s', h⟩
      rw [first_of_ok hx] at h
      cases h

end Attempts

end FirstBest
