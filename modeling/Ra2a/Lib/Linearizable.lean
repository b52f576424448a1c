import Mathlib.Data.List.Nodup
import Ra2a.Lib.Interleave

/-!
# Calls that take effect at once

The threads of a machine may be calls on one object, each some steps long.  An
`Object` says what the calls are: the operation a thread performs, its result once
it has one, the state the operations act on, and by `spec` what an operation may do
when nothing comes in between.  A machine is `Atomic` if each of its steps either
changes nothing of this, or gives one thread its result as `spec` says.

Then every schedule is a sequential run in disguise (`Atomic.linearizable`): the
calls that have a result, each taken once and in the order in which they came to it,
lead from the first state to the last.  The order of a schedule goes on with the
order of its prefixes (`effects_append`), so a call that had its result before
another began comes first.
-/

namespace Interleave

universe u v w

variable {σ : Type u} {τ : Type v} {μ : Type w} {α ω ρ : Type*}

/-- Calls on an object: `spec s op r s'` says that `op` may return `r` in state `s`
and leave `s'`. -/
structure Object (σ : Type u) (τ : Type v) (α ω ρ : Type*) where
  state : σ → α
  op : τ → ω
  result : τ → Option ρ
  spec : α → ω → ρ → α → Prop

/-- Operations one after the other, with what they return. -/
inductive Sequential (spec : α → ω → ρ → α → Prop) : α → List (ω × ρ) → α → Prop
  | nil (s : α) : Sequential spec s [] s
  | concat {s s' s'' : α} {calls : List (ω × ρ)} {op : ω} {r : ρ}
      (prior : Sequential spec s calls s') (last : spec s' op r s'') :
      Sequential spec s (calls ++ [(op, r)]) s''

namespace Object

variable (M : Machine σ τ μ) (O : Object σ τ α ω ρ)

/-- The call that comes to its result at a step. -/
def effect (c : Config σ τ) : Label τ μ → List (ℕ × ω × ρ)
  | .arrive _ => []
  | .run i m =>
    match c.threads[i]? with
    | none => []
    | some t =>
      match M.advance c.shared c.threads i m t with
      | none => []
      | some (_, t', _) =>
        match O.result t, O.result t' with
        | none, some r => [(i, O.op t, r)]
        | _, _ => []

/-- The calls that come to their results along a schedule. -/
def effects (c : Config σ τ) (ls : List (Label τ μ)) : List (ℕ × ω × ρ) :=
  M.yields (O.effect M) c ls

/-- Each step gives one thread its result, as the operation says, or changes nothing
of what the operations see. -/
structure Atomic (ok : Config σ τ → Label τ μ → Prop) : Prop where
  fresh : ∀ t, M.fresh t = true → O.result t = none
  step : ∀ c i m t s' t' new, ok c (.run i m) → c.threads[i]? = some t →
    M.advance c.shared c.threads i m t = some (s', t', new) →
    new = [] ∧ O.op t' = O.op t ∧
      ((O.result t' = O.result t ∧ O.state s' = O.state c.shared) ∨
        ∃ r, O.result t = none ∧ O.result t' = some r ∧
          O.spec (O.state c.shared) (O.op t) r (O.state s'))

variable {M O} {ok : Config σ τ → Label τ μ → Prop} {c₀ c c' : Config σ τ} {l : Label τ μ}
  {ls : List (Label τ μ)}

/-- What came to its result along a prefix of a schedule comes first. -/
theorem effects_append {pre post : List (Label τ μ)} :
    ∃ later, O.effects M c₀ (pre ++ post) = O.effects M c₀ pre ++ later := by
  induction pre generalizing c₀ with
  | nil => exact ⟨_, rfl⟩
  | cons l ls ih =>
    rw [List.cons_append, effects, effects, Machine.yields, Machine.yields]
    cases hs : M.step c₀ l with
    | none => exact ⟨[], by simp⟩
    | some c₁ =>
      obtain ⟨later, hl⟩ := @ih c₁
      refine ⟨later, ?_⟩
      rw [List.append_assoc]
      exact congrArg (O.effect M c₀ l ++ ·) hl

/-- What a step adds: nothing, or the call of the thread that moves. -/
theorem effect_run {i : ℕ} {m : μ} {t t' : τ} {s' : σ} {new : List τ}
    (ht : c.threads[i]? = some t)
    (ha : M.advance c.shared c.threads i m t = some (s', t', new)) :
    O.effect M c (.run i m) =
      match O.result t, O.result t' with
      | none, some r => [(i, O.op t, r)]
      | _, _ => [] := by
  simp only [effect, ht, ha]

/-- The calls of a schedule as it has come to a state: in some order they lead
there, and they are those that have a result, each once. -/
structure Linearized (O : Object σ τ α ω ρ) (s₀ : α) (calls : List (ℕ × ω × ρ))
    (c : Config σ τ) : Prop where
  run : Sequential O.spec s₀ (calls.map Prod.snd) (O.state c.shared)
  mem : ∀ i op r, (i, op, r) ∈ calls ↔
    ∃ t, c.threads[i]? = some t ∧ O.op t = op ∧ O.result t = some r
  nodup : (calls.map Prod.fst).Nodup

theorem Linearized.arrive {s₀ : α} {calls : List (ℕ × ω × ρ)} (h : O.Linearized s₀ calls c)
    {t : τ} (ht : O.result t = none) :
    O.Linearized s₀ calls ⟨c.shared, c.threads ++ [t]⟩ where
  run := h.run
  mem i op r := by
    rw [h.mem]
    constructor
    · rintro ⟨u, hu, hrest⟩
      exact ⟨u, Places.getElem?_append_of_some hu, hrest⟩
    · rintro ⟨u, hu, hop, hr⟩
      rcases Places.getElem?_concat_cases hu with hu | ⟨-, rfl⟩
      · exact ⟨u, hu, hop, hr⟩
      · rw [ht] at hr
        cases hr
  nodup := h.nodup

/-- A step at which no call comes to its result. -/
theorem Linearized.quiet {s₀ : α} {calls : List (ℕ × ω × ρ)} (h : O.Linearized s₀ calls c)
    {i : ℕ} {t t' : τ} {s' : σ} (ht : c.threads[i]? = some t) (hop : O.op t' = O.op t)
    (hr : O.result t' = O.result t) (hs : O.state s' = O.state c.shared) :
    O.Linearized s₀ calls ⟨s', c.threads.set i t'⟩ where
  run := by
    rw [hs]
    exact h.run
  mem j op r := by
    rw [h.mem]
    constructor
    · rintro ⟨u, hu, hopu, hru⟩
      by_cases hji : j = i
      · subst hji
        rw [ht] at hu
        cases hu
        exact ⟨t', Places.getElem?_set_of_some ht, hop.trans hopu, hr.trans hru⟩
      · exact ⟨u, Places.getElem?_set_of_ne hu hji, hopu, hru⟩
    · rintro ⟨u, hu, hopu, hru⟩
      rcases Places.getElem?_set_cases hu with ⟨rfl, rfl⟩ | ⟨-, hu⟩
      · exact ⟨t, ht, hop.symm.trans hopu, hr.symm.trans hru⟩
      · exact ⟨u, hu, hopu, hru⟩
  nodup := h.nodup

/-- A step at which a call comes to its result. -/
theorem Linearized.takesEffect {s₀ : α} {calls : List (ℕ × ω × ρ)} (h : O.Linearized s₀ calls c)
    {i : ℕ} {t t' : τ} {s' : σ} {r : ρ} (ht : c.threads[i]? = some t) (hop : O.op t' = O.op t)
    (hnone : O.result t = none) (hr : O.result t' = some r)
    (hspec : O.spec (O.state c.shared) (O.op t) r (O.state s')) :
    O.Linearized s₀ (calls ++ [(i, O.op t, r)]) ⟨s', c.threads.set i t'⟩ where
  run := by
    rw [List.map_append]
    exact .concat h.run hspec
  mem j op r' := by
    rw [List.mem_append, h.mem, List.mem_singleton]
    constructor
    · rintro (⟨u, hu, hopu, hru⟩ | he)
      · have hji : j ≠ i := by
          rintro rfl
          rw [ht] at hu
          cases hu
          rw [hnone] at hru
          cases hru
        exact ⟨u, Places.getElem?_set_of_ne hu hji, hopu, hru⟩
      · cases he
        exact ⟨t', Places.getElem?_set_of_some ht, hop, hr⟩
    · rintro ⟨u, hu, hopu, hru⟩
      rcases Places.getElem?_set_cases hu with ⟨rfl, rfl⟩ | ⟨-, hu⟩
      · right
        rw [hr] at hru
        rw [← Option.some.inj hru, ← hopu, hop]
      · exact Or.inl ⟨u, hu, hopu, hru⟩
  nodup := by
    rw [List.map_append]
    refine List.nodup_append.mpr ⟨h.nodup, List.nodup_singleton _, ?_⟩
    rintro j hj _ hi rfl
    obtain ⟨⟨j', op, r'⟩, hmem, rfl⟩ := List.mem_map.mp hj
    obtain rfl : j' = i := List.mem_singleton.mp hi
    obtain ⟨u, hu, -, hru⟩ := (h.mem j' op r').mp hmem
    rw [ht] at hu
    cases hu
    rw [hnone] at hru
    cases hru

/-- **Every schedule is linearizable** where the steps are atomic. -/
theorem Atomic.linearizable (hO : O.Atomic M ok) (h₀ : c₀.threads = [])
    (hok : M.Along ok c₀ ls) (hrun : M.exec c₀ ls = some c) :
    O.Linearized (O.state c₀.shared) (O.effects M c₀ ls) c := by
  refine Machine.Reach.of_schedule
    (P := fun ls c => O.Linearized (O.state c₀.shared) (O.effects M c₀ ls) c) ?_ ?_ hok hrun
  · refine ⟨.nil _, fun i op r => ?_, List.nodup_nil⟩
    constructor
    · intro hmem
      cases hmem
    · rintro ⟨t, ht, -⟩
      rw [h₀] at ht
      cases ht
  · intro ls l c c' hreach hexec hlin hl hs
    rw [effects, Machine.Reach.yields_concat hexec]
    rcases Machine.step_cases hs with ⟨t, rfl, hf, rfl⟩ | ⟨i, m, t, s', t', new, rfl, ht, ha, rfl⟩
    · rw [effect, List.append_nil]
      exact hlin.arrive (hO.fresh t hf)
    · rw [effect_run ht ha]
      obtain ⟨rfl, hop, ⟨hr, hstate⟩ | ⟨r, hnone, hr, hspec⟩⟩ := hO.step c i m t s' t' new hl ht ha
      · have hnil : (match O.result t, O.result t' with
            | none, some r => [(i, O.op t, r)]
            | _, _ => []) = [] := by
          rw [hr]
          cases O.result t <;> rfl
        rw [hnil, List.append_nil, List.append_nil]
        exact hlin.quiet ht hop hr hstate
      · rw [hnone, hr, List.append_nil]
        exact hlin.takesEffect ht hop hnone hr hspec

end Object

end Interleave
