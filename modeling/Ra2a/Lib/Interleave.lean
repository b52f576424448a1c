import Mathlib.Data.List.Induction
import Ra2a.Lib.Places

/-!
# Interleaved threads

Threads run over a shared state, one atomic operation at a time.  A `Machine`
says what one operation of one thread does: it reads the shared state and the
list of threads, and gives the shared state after it, the thread after it, and
the threads it starts.  Threads are named by their place in the list, which
only grows.  The environment may add a thread that the machine calls fresh.

`Machine.step` is one operation, `Machine.exec` a schedule of them.  `Reach ok`
is what a run can reach whose every step meets a condition `ok` on the state it
starts in; with no condition it is what `exec` computes (`Reach.of_exec`, and
`Reach.of_along` where there is one).

`Machine.yields` gathers what a schedule yields, step by step, and
`Reach.of_schedule` is the induction for properties of a schedule together with
the state it has come to.

Two rules carry invariants along a run.  `Reach.invariant` is for a property of
the whole configuration.  `Reach.threads` is for an assertion about each thread
(Owicki and Gries): the thread that moves re-establishes its own, a thread that
starts has its own, and no move of another thread breaks one.  `Reach.measure_of_exec`
is for progress: it bounds how many steps of a kind a schedule can have by a measure
and by what its steps yield.
-/

namespace Interleave

open Places

universe u v w

variable {σ : Type u} {τ : Type v} {μ : Type w}

/-- Threads of type `τ` over a shared state of type `σ`; a move of type `μ` is
what the environment chooses about one operation. -/
structure Machine (σ : Type u) (τ : Type v) (μ : Type w) where
  fresh : τ → Bool
  advance : σ → List τ → ℕ → μ → τ → Option (σ × τ × List τ)

structure Config (σ : Type u) (τ : Type v) where
  shared : σ
  threads : List τ

inductive Label (τ : Type v) (μ : Type w)
  | arrive (t : τ)
  | run (i : ℕ) (m : μ)

namespace Machine

variable (M : Machine σ τ μ)

/-- One operation. -/
def step (c : Config σ τ) : Label τ μ → Option (Config σ τ)
  | .arrive t => if M.fresh t then some ⟨c.shared, c.threads ++ [t]⟩ else none
  | .run i m =>
    match c.threads[i]? with
    | none => none
    | some t =>
      (M.advance c.shared c.threads i m t).map fun r =>
        ⟨r.1, c.threads.set i r.2.1 ++ r.2.2⟩

/-- A schedule of operations. -/
def exec (c : Config σ τ) : List (Label τ μ) → Option (Config σ τ)
  | [] => some c
  | l :: ls => (M.step c l).bind fun c' => exec c' ls

/-- What a run from `c₀` reaches if each of its steps meets `ok`. -/
inductive Reach (ok : Config σ τ → Label τ μ → Prop) (c₀ : Config σ τ) : Config σ τ → Prop
  | refl : Reach ok c₀ c₀
  | tail {c c' : Config σ τ} {l : Label τ μ} (prior : Reach ok c₀ c) (hok : ok c l)
      (hs : M.step c l = some c') : Reach ok c₀ c'

/-- Each step of a schedule meets `ok`, as far as the schedule can be run. -/
def Along (ok : Config σ τ → Label τ μ → Prop) (c : Config σ τ) : List (Label τ μ) → Prop
  | [] => True
  | l :: ls =>
    ok c l ∧
      match M.step c l with
      | some c' => Along ok c' ls
      | none => True

/-- What a schedule yields, `f` being what one step yields. -/
def yields {β : Type*} (f : Config σ τ → Label τ μ → List β) (c : Config σ τ) :
    List (Label τ μ) → List β
  | [] => []
  | l :: ls =>
    f c l ++
      match M.step c l with
      | some c' => yields f c' ls
      | none => []

/-- A run with no condition on its steps. -/
def Always (_ : Config σ τ) (_ : Label τ μ) : Prop := True

variable {M} {ok : Config σ τ → Label τ μ → Prop} {c₀ c c' : Config σ τ} {l : Label τ μ}

/-- What one operation can be. -/
theorem step_cases (h : M.step c l = some c') :
    (∃ t, l = .arrive t ∧ M.fresh t = true ∧ c' = ⟨c.shared, c.threads ++ [t]⟩) ∨
      ∃ i m t s' t' new, l = .run i m ∧ c.threads[i]? = some t ∧
        M.advance c.shared c.threads i m t = some (s', t', new) ∧
        c' = ⟨s', c.threads.set i t' ++ new⟩ := by
  cases l with
  | arrive t =>
    rw [step] at h
    split at h
    · exact Or.inl ⟨t, rfl, ‹_›, (Option.some.inj h).symm⟩
    · cases h
  | run i m =>
    rw [step] at h
    cases ht : c.threads[i]? with
    | none => rw [ht] at h; cases h
    | some t =>
      rw [ht] at h
      obtain ⟨⟨s', t', new⟩, hr, rfl⟩ := Option.map_eq_some_iff.mp h
      exact Or.inr ⟨i, m, t, s', t', new, rfl, ht, hr, rfl⟩

/-- The thread at `j` after thread `i` has moved. -/
theorem getElem?_moved {ts new : List τ} {t' u : τ} {i j : ℕ}
    (h : (ts.set i t' ++ new)[j]? = some u) :
    (j = i ∧ u = t') ∨ (j ≠ i ∧ ts[j]? = some u) ∨
      (ts.length ≤ j ∧ new[j - ts.length]? = some u) := by
  by_cases hj : j < ts.length
  · rw [List.getElem?_append_left (by rwa [List.length_set])] at h
    rcases getElem?_set_cases h with hself | hother
    · exact Or.inl hself
    · exact Or.inr (Or.inl hother)
  · rw [List.getElem?_append_right (by rw [List.length_set]; omega), List.length_set] at h
    exact Or.inr (Or.inr ⟨by omega, h⟩)

/-- A thread that does not move stays where it is. -/
theorem getElem?_of_ne {ts new : List τ} {t' u : τ} {i j : ℕ} (h : ts[j]? = some u)
    (hij : j ≠ i) : (ts.set i t' ++ new)[j]? = some u :=
  getElem?_append_of_some (getElem?_set_of_ne h hij)

/-- The thread that moves is where it was. -/
theorem getElem?_self {ts new : List τ} {t t' : τ} {i : ℕ} (h : ts[i]? = some t) :
    (ts.set i t' ++ new)[i]? = some t' :=
  getElem?_append_of_some (getElem?_set_of_some h)

namespace Reach

theorem trans {c₁ : Config σ τ} (h : M.Reach ok c₀ c₁) (g : M.Reach ok c₁ c) :
    M.Reach ok c₀ c := by
  induction g with
  | refl => exact h
  | tail _ hok hs ih => exact .tail ih hok hs

/-- A weaker condition lets more through. -/
theorem mono {ok' : Config σ τ → Label τ μ → Prop} (himp : ∀ c l, ok c l → ok' c l)
    (h : M.Reach ok c₀ c) : M.Reach ok' c₀ c := by
  induction h with
  | refl => exact .refl
  | tail _ hok hs ih => exact .tail ih (himp _ _ hok) hs

theorem of_along {ls : List (Label τ μ)} (hok : M.Along ok c₀ ls) (h : M.exec c₀ ls = some c) :
    M.Reach ok c₀ c := by
  induction ls generalizing c₀ with
  | nil => rw [← Option.some.inj h]; exact .refl
  | cons l ls ih =>
    obtain ⟨c₁, hs, hr⟩ := Option.bind_eq_some_iff.mp h
    obtain ⟨hl, hls⟩ := hok
    rw [hs] at hls
    exact (Reach.tail .refl hl hs).trans (ih hls hr)

/-- A schedule whose steps meet a condition: wherever it has come to, the next
step does. -/
theorem along_of_forall {ls : List (Label τ μ)}
    (h : ∀ pre l rest c, ls = pre ++ l :: rest → M.exec c₀ pre = some c → ok c l) :
    M.Along ok c₀ ls := by
  induction ls generalizing c₀ with
  | nil => exact trivial
  | cons l ls ih =>
    refine ⟨h [] l ls c₀ rfl rfl, ?_⟩
    split
    · rename_i c₁ hs
      refine ih fun pre l' rest c he hc => h (l :: pre) l' rest c (by rw [he]; rfl) ?_
      rw [exec, hs]
      exact hc
    · exact trivial

theorem exec_concat (ls : List (Label τ μ)) (l : Label τ μ) :
    M.exec c₀ (ls ++ [l]) = (M.exec c₀ ls).bind fun c => M.step c l := by
  induction ls generalizing c₀ with
  | nil =>
    change (M.step c₀ l).bind some = (some c₀).bind fun c => M.step c l
    rw [Option.bind_fun_some]
    rfl
  | cons l' ls ih =>
    rw [List.cons_append, exec, exec, Option.bind_assoc]
    congr 1
    funext c
    exact ih

/-- A schedule in two parts. -/
theorem exec_append (ls ls' : List (Label τ μ)) :
    M.exec c₀ (ls ++ ls') = (M.exec c₀ ls).bind fun c => M.exec c ls' := by
  induction ls generalizing c₀ with
  | nil => rfl
  | cons l ls ih =>
    rw [List.cons_append, exec, exec, Option.bind_assoc]
    congr 1
    funext c
    exact ih

theorem yields_concat {β : Type*} {f : Config σ τ → Label τ μ → List β} {ls : List (Label τ μ)}
    (h : M.exec c₀ ls = some c) :
    M.yields f c₀ (ls ++ [l]) = M.yields f c₀ ls ++ f c l := by
  induction ls generalizing c₀ with
  | nil =>
    obtain rfl := Option.some.inj h
    rw [List.nil_append, yields, yields, List.nil_append]
    split
    · rw [yields, List.append_nil]
    · rw [List.append_nil]
  | cons l' ls ih =>
    obtain ⟨c₁, hs, hr⟩ := Option.bind_eq_some_iff.mp h
    rw [List.cons_append, yields, yields, hs]
    dsimp only
    rw [ih hr, List.append_assoc]

/-- Where each step yields what another one does, seen through `g`. -/
theorem yields_flatMap {β γ : Type*} {f : Config σ τ → Label τ μ → List β}
    {f' : Config σ τ → Label τ μ → List γ} {g : β → List γ}
    (hf : ∀ c l, f' c l = (f c l).flatMap g) (ls : List (Label τ μ)) :
    M.yields f' c ls = (M.yields f c ls).flatMap g := by
  induction ls generalizing c with
  | nil => rfl
  | cons l ls ih =>
    rw [yields, yields, List.flatMap_append, hf]
    split
    · rw [ih]
    · rfl

/-- A schedule none of whose steps yields anything. -/
theorem yields_eq_nil {β : Type*} {f : Config σ τ → Label τ μ → List β}
    (hf : ∀ c l, ok c l → f c l = []) {ls : List (Label τ μ)} (hok : M.Along ok c ls) :
    M.yields f c ls = [] := by
  induction ls generalizing c with
  | nil => rfl
  | cons l ls ih =>
    obtain ⟨hl, hls⟩ := hok
    rw [yields, hf c l hl, List.nil_append]
    split
    · rename_i c₁ hs
      rw [hs] at hls
      exact ih hls
    · rfl

theorem along_concat {ls : List (Label τ μ)} (h : M.Along ok c₀ (ls ++ [l])) :
    M.Along ok c₀ ls ∧ ∀ c, M.exec c₀ ls = some c → ok c l := by
  induction ls generalizing c₀ with
  | nil =>
    refine ⟨trivial, fun c hc => ?_⟩
    rw [← Option.some.inj hc]
    exact h.1
  | cons l' ls ih =>
    obtain ⟨hl, hls⟩ := h
    cases hs : M.step c₀ l' with
    | none =>
      refine ⟨⟨hl, by rw [hs]; exact trivial⟩, fun c hc => ?_⟩
      rw [exec, hs] at hc
      cases hc
    | some c₁ =>
      rw [hs] at hls
      obtain ⟨h₁, h₂⟩ := ih hls
      refine ⟨⟨hl, by rw [hs]; exact h₁⟩, fun c hc => ?_⟩
      rw [exec, hs] at hc
      exact h₂ c hc

/-- **A property of a schedule and the state it has come to** that one more step
keeps. -/
theorem of_schedule {P : List (Label τ μ) → Config σ τ → Prop} (h₀ : P [] c₀)
    (hstep : ∀ ls l c c', M.Reach ok c₀ c → M.exec c₀ ls = some c → P ls c → ok c l →
      M.step c l = some c' → P (ls ++ [l]) c')
    {ls : List (Label τ μ)} (hok : M.Along ok c₀ ls) (h : M.exec c₀ ls = some c) : P ls c := by
  induction ls using List.reverseRecOn generalizing c with
  | nil => rw [← Option.some.inj h]; exact h₀
  | append_singleton ls l ih =>
    obtain ⟨hls, hl⟩ := along_concat hok
    rw [exec_concat] at h
    obtain ⟨c₁, hc₁, hs⟩ := Option.bind_eq_some_iff.mp h
    exact hstep ls l c₁ c (of_along hls hc₁) hc₁ (ih hls hc₁) (hl c₁ hc₁) hs

theorem along_always (ls : List (Label τ μ)) : M.Along Always c₀ ls := by
  induction ls generalizing c₀ with
  | nil => exact trivial
  | cons l ls ih =>
    refine ⟨trivial, ?_⟩
    split
    · exact ih
    · exact trivial

theorem of_exec {ls : List (Label τ μ)} (h : M.exec c₀ ls = some c) : M.Reach Always c₀ c :=
  of_along (along_always ls) h

/-- A property of the configuration that every step keeps. -/
theorem invariant {I : Config σ τ → Prop} (h₀ : I c₀)
    (hstep : ∀ c l c', I c → ok c l → M.step c l = some c' → I c') (h : M.Reach ok c₀ c) : I c := by
  induction h with
  | refl => exact h₀
  | tail _ hok hs ih => exact hstep _ _ _ ih hok hs

/-- **A measure along a schedule.**  If a step raises it by no more than it yields, and
each of the steps in `own` by less, there are no more of these than it was at first
and the schedule yields. -/
theorem measure_of_exec {β : Type*} {I : Config σ τ → Prop} {left : Config σ τ → ℕ}
    {own : Label τ μ → Bool} {gain : Config σ τ → Label τ μ → List β}
    (hstep : ∀ c l c', I c → ok c l → M.step c l = some c' →
      I c' ∧ left c' + (if own l then 1 else 0) ≤ left c + (gain c l).length)
    {ls : List (Label τ μ)} (hI : I c₀) (hok : M.Along ok c₀ ls) (h : M.exec c₀ ls = some c) :
    I c ∧ left c + ls.countP own ≤ left c₀ + (M.yields gain c₀ ls).length := by
  induction ls generalizing c₀ with
  | nil =>
    rw [← Option.some.inj h]
    exact ⟨hI, Nat.le_refl _⟩
  | cons l ls ih =>
    obtain ⟨c₁, hs, hr⟩ := Option.bind_eq_some_iff.mp h
    obtain ⟨hl, hls⟩ := hok
    rw [hs] at hls
    obtain ⟨hI₁, hle⟩ := hstep c₀ l c₁ hI hl hs
    obtain ⟨hI', hle'⟩ := ih hI₁ hls hr
    refine ⟨hI', ?_⟩
    rw [List.countP_cons, yields, hs, List.length_append]
    dsimp only
    omega

/-- What holds of every state reached may be assumed of the states the steps
start in. -/
theorem assuming {I : Config σ τ → Prop} (hI : ∀ c, M.Reach ok c₀ c → I c)
    (h : M.Reach ok c₀ c) : M.Reach (fun c l => I c ∧ ok c l) c₀ c := by
  induction h with
  | refl => exact .refl
  | tail prior hok hs ih => exact .tail ih ⟨hI _ prior, hok⟩ hs

/-- The assertion `A` holds of every thread. -/
def Each (A : Config σ τ → ℕ → τ → Prop) (c : Config σ τ) : Prop :=
  ∀ j t, c.threads[j]? = some t → A c j t

/-- **An assertion about each thread holds along a run** if a thread that
arrives or is started has it, the thread that moves has it again, and the other
threads keep theirs. -/
theorem threads {A : Config σ τ → ℕ → τ → Prop} (h₀ : Each A c₀)
    (harrive : ∀ c t, Each A c → ok c (.arrive t) → M.fresh t = true →
      Each A ⟨c.shared, c.threads ++ [t]⟩)
    (hmove : ∀ c i m t s' t' new, Each A c → ok c (.run i m) → c.threads[i]? = some t →
      M.advance c.shared c.threads i m t = some (s', t', new) →
      A ⟨s', c.threads.set i t' ++ new⟩ i t')
    (hnew : ∀ c i m t s' t' new j u, Each A c → ok c (.run i m) → c.threads[i]? = some t →
      M.advance c.shared c.threads i m t = some (s', t', new) → c.threads.length ≤ j →
      new[j - c.threads.length]? = some u → A ⟨s', c.threads.set i t' ++ new⟩ j u)
    (hstable : ∀ c i m t s' t' new j u, Each A c → ok c (.run i m) → c.threads[i]? = some t →
      M.advance c.shared c.threads i m t = some (s', t', new) → j ≠ i →
      c.threads[j]? = some u → A ⟨s', c.threads.set i t' ++ new⟩ j u)
    (h : M.Reach ok c₀ c) : Each A c := by
  refine h.invariant h₀ fun c l c' hA hok hs => ?_
  rcases step_cases hs with ⟨t, rfl, hf, rfl⟩ | ⟨i, m, t, s', t', new, rfl, ht, ha, rfl⟩
  · exact harrive c t hA hok hf
  · intro j u hu
    rcases getElem?_moved hu with ⟨rfl, rfl⟩ | ⟨hij, hj⟩ | ⟨hlen, hj⟩
    · exact hmove c j m t s' u new hA hok ht ha
    · exact hstable c i m t s' t' new j u hA hok ht ha hij hj
    · exact hnew c i m t s' t' new j u hA hok ht ha hlen hj

end Reach

end Machine

end Interleave
