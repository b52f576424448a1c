import Mathlib.Data.List.Forall2
import Mathlib.Tactic.Ring

/-!
# Chains of steps, observed

A chain hands a value on from one step to the next.  Each step may change a
state, and the first one that fails ends the chain.

To see what the steps of a chain are given, each is replaced by one that writes
a note of it to a log and then does the same (`observed`).  `Writes` says that a
computation is another one that writes some notes besides; it goes through the
monad's operations (`Writes.bind`, `Writes.pure`) and through a chain
(`writes_run`).  A chain writes what is `given` to its steps: a note for each of
them if none fails (`map_given_of_ok`).

`AllVisited` says of a log that it is made of one round for each of some
outcomes, and in each round everybody was visited, in order.
-/

namespace Chain

universe u v w

variable {ε σ α β ι ρ : Type u}

abbrev Step (ε σ α : Type u) := α → ExceptT ε (StateM σ) α

/-- The steps one after another. -/
def run : List (Step ε σ α) → Step ε σ α
  | [], a => pure a
  | f :: fs, a => f a >>= run fs

/-- What is noted after a result; nothing after an error. -/
def onOk (r : Except ε α × σ) (notes : α → σ → List β) : List β :=
  match r with
  | (.ok a, s) => notes a s
  | (.error _, _) => []

/-- The notes that a chain of observed steps writes. -/
def given : List ((α → β) × Step ε σ α) → α → σ → List β
  | [], _, _ => []
  | (note, f) :: fs, a, s => note a :: onOk (f a s) (given fs)

theorem onOk_nil (r : Except ε α × σ) : onOk r (fun _ _ => ([] : List β)) = [] := by
  rcases r with ⟨_ | a, s⟩ <;> rfl

theorem mem_onOk_iff {r : Except ε α × σ} {notes : α → σ → List β} {b : β} :
    b ∈ onOk r notes ↔ ∃ a s, r = (.ok a, s) ∧ b ∈ notes a s := by
  obtain ⟨e | a, s⟩ := r
  · refine iff_of_false (List.not_mem_nil) ?_
    rintro ⟨a, s', he, -⟩
    cases he
  · constructor
    · intro hb
      exact ⟨a, s, rfl, hb⟩
    · rintro ⟨a', s', he, hb⟩
      cases he
      exact hb

/-- What comes after a result runs from the state that is left, and an error is the
end. -/
theorem bind_run {m : ExceptT ε (StateM σ) α} {f : α → ExceptT ε (StateM σ) β} {s : σ} :
    (m >>= f) s = match m s with
      | (.ok a, s') => f a s'
      | (.error e, s') => (.error e, s') := by
  show StateT.bind m (ExceptT.bindCont f) s = _
  rcases h : m s with ⟨_ | a, s'⟩ <;> simp only [StateT.bind, h, bind] <;> rfl

theorem bind_of_ok {m : ExceptT ε (StateM σ) α} {f : α → ExceptT ε (StateM σ) β} {s s' : σ} {a : α}
    (h : m s = (.ok a, s')) : (m >>= f) s = f a s' := by
  rw [bind_run, h]

theorem run_cons {f : Step ε σ α} {fs : List (Step ε σ α)} {a : α} {s : σ} :
    run (f :: fs) a s = match f a s with
      | (.ok a', s') => run fs a' s'
      | (.error e, s') => (.error e, s') := bind_run

/-! ### Computations that write notes -/

/-- `m'` does what `m` does, and adds `notes` to the log. -/
def Writes (notes : σ → List β) (m : σ → α × σ) (m' : σ × List β → α × (σ × List β)) : Prop :=
  ∀ s log, m' (s, log) = ((m s).1, ((m s).2, log ++ notes s))

/-- A computation beside a log, which it leaves alone. -/
def beside (m : ExceptT ε (StateM σ) α) : ExceptT ε (StateM (σ × List β)) α :=
  fun s => ((m s.1).1, ((m s.1).2, s.2))

/-- A step that writes a note of what it is given. -/
def observed (note : α → β) (f : Step ε σ α) : Step ε (σ × List β) α :=
  fun a s => ((f a s.1).1, ((f a s.1).2, s.2 ++ [note a]))

namespace Writes

theorem beside (m : ExceptT ε (StateM σ) α) :
    Writes (fun _ => ([] : List β)) m (Chain.beside m) := by
  intro s log
  rw [List.append_nil]
  rfl

theorem observed (note : α → β) (f : Step ε σ α) (a : α) :
    Writes (fun _ => [note a]) (f a) (Chain.observed note f a) := by
  intro s log
  rfl

theorem pure (a : α) :
    Writes (fun _ => ([] : List β)) (pure a : StateM σ α) (pure a : StateM (σ × List β) α) := by
  intro s log
  rw [List.append_nil]
  rfl

theorem congr {notes notes' : σ → List β} {m : σ → α × σ}
    {m' : σ × List β → α × (σ × List β)} (h : Writes notes m m') (hn : ∀ s, notes s = notes' s) :
    Writes notes' m m' := by
  intro s log
  rw [h s log, hn]

theorem bindState {γ : Type u} {notes : σ → List β} {notes' : α → σ → List β} {m : StateM σ α}
    {m' : StateM (σ × List β) α} {f : α → StateM σ γ} {f' : α → StateM (σ × List β) γ}
    (h : Writes notes m m') (hf : ∀ a, Writes (notes' a) (f a) (f' a)) :
    Writes (fun s => notes s ++ notes' (m s).1 (m s).2) (m >>= f) (m' >>= f') := by
  intro s log
  change f' (m' (s, log)).1 (m' (s, log)).2 = _
  rw [h s log, hf, List.append_assoc]
  rfl

/-- What comes after a result writes its notes after those before, and after an
error comes nothing. -/
theorem bind {γ : Type u} {notes : σ → List β} {notes' : α → σ → List β}
    {m : ExceptT ε (StateM σ) α} {m' : ExceptT ε (StateM (σ × List β)) α}
    {f : α → ExceptT ε (StateM σ) γ} {f' : α → ExceptT ε (StateM (σ × List β)) γ}
    (h : Writes notes m m') (hf : ∀ a, Writes (notes' a) (f a) (f' a)) :
    Writes (fun s => notes s ++ onOk (m s) notes') (m >>= f) (m' >>= f') := by
  intro s log
  rw [bind_run, bind_run, h s log]
  rcases hm : m s with ⟨e | a, s'⟩
  · simp only [hm, onOk, List.append_nil]
  · simp only [hm, onOk]
    rw [hf a, List.append_assoc]

theorem bind_silent {γ : Type u} {notes : σ → List β} {m : ExceptT ε (StateM σ) α}
    {m' : ExceptT ε (StateM (σ × List β)) α} {f : α → ExceptT ε (StateM σ) γ}
    {f' : α → ExceptT ε (StateM (σ × List β)) γ} (h : Writes notes m m')
    (hf : ∀ a, Writes (fun _ => ([] : List β)) (f a) (f' a)) :
    Writes notes (m >>= f) (m' >>= f') := by
  refine (h.bind hf).congr fun s => ?_
  rw [onOk_nil, List.append_nil]

/-- What comes after a computation that writes nothing. -/
theorem silent_bind {γ : Type u} {notes : α → σ → List β} {m : ExceptT ε (StateM σ) α}
    {m' : ExceptT ε (StateM (σ × List β)) α} {f : α → ExceptT ε (StateM σ) γ}
    {f' : α → ExceptT ε (StateM (σ × List β)) γ} (h : Writes (fun _ => ([] : List β)) m m')
    (hf : ∀ a, Writes (notes a) (f a) (f' a)) :
    Writes (fun s => onOk (m s) notes) (m >>= f) (m' >>= f') :=
  (h.bind hf).congr fun _ => List.nil_append _

/-- A computation that cannot fail, where others can. -/
theorem lift {notes : σ → List β} {m : StateM σ α} {m' : StateM (σ × List β) α}
    (h : Writes notes m m') :
    Writes notes (liftM m : ExceptT ε (StateM σ) α)
      (liftM m' : ExceptT ε (StateM (σ × List β)) α) := by
  intro s log
  change (Except.ok (m' (s, log)).1, (m' (s, log)).2) = _
  rw [h s log]
  rfl

end Writes

/-- **A chain of observed steps** writes what its steps are given. -/
theorem writes_run (fs : List ((α → β) × Step ε σ α)) (a : α) :
    Writes (given fs a) (run (fs.map Prod.snd) a)
      (run (fs.map fun p => observed p.1 p.2) a) := by
  induction fs generalizing a with
  | nil => exact .pure (Except.ok a)
  | cons p fs ih =>
    refine ((Writes.observed p.1 p.2 a).bind ih).congr fun s => ?_
    rw [given, List.singleton_append]

/-- A chain beside a log. -/
theorem writes_run_beside (fs : List (Step ε σ α)) (a : α) :
    Writes (fun _ => ([] : List β)) (run fs a) (run (fs.map fun f a => beside (f a)) a) := by
  induction fs generalizing a with
  | nil => exact .pure (Except.ok a)
  | cons f fs ih =>
    refine ((Writes.beside (f a)).bind ih).congr fun s => ?_
    rw [onOk_nil, List.append_nil]

/-- What every note says, the notes of the chain say. -/
theorem forall_mem_given {P : β → Prop} {fs : List ((α → β) × Step ε σ α)}
    (h : ∀ p ∈ fs, ∀ a, P (p.1 a)) (a : α) (s : σ) : ∀ b ∈ given fs a s, P b := by
  induction fs generalizing a s with
  | nil =>
    intro b hb
    cases hb
  | cons p fs ih =>
    intro b hb
    rw [given] at hb
    rcases List.mem_cons.mp hb with rfl | hb
    · exact h p List.mem_cons_self a
    · obtain ⟨a', s', -, hb⟩ := mem_onOk_iff.mp hb
      exact ih (fun q hq => h q (List.mem_cons_of_mem p hq)) a' s' b hb

/-- The first step is given what the chain is. -/
theorem head?_given {fs : List ((α → β) × Step ε σ α)} (a : α) (s : σ) :
    (given fs a s).head? = fs.head?.map fun p => p.1 a := by
  cases fs with
  | nil => rfl
  | cons p fs => rfl

theorem given_eq_nil_iff {fs : List ((α → β) × Step ε σ α)} {a : α} {s : σ} :
    given fs a s = [] ↔ fs = [] := by
  cases fs with
  | nil => exact iff_of_true rfl rfl
  | cons p fs => exact iff_of_false (List.cons_ne_nil _ _) (List.cons_ne_nil _ _)

/-- **No step is left out** of a chain in which none fails. -/
theorem map_given_of_ok {γ δ : Type u} {g : β → δ} {ps : List γ} {note : γ → α → β}
    {f : γ → Step ε σ α} {name : γ → δ} (hname : ∀ p ∈ ps, ∀ a, g (note p a) = name p)
    (hok : ∀ p ∈ ps, ∀ a s, ∃ a' s', f p a s = (.ok a', s')) (a : α) (s : σ) :
    (given (ps.map fun p => (note p, f p)) a s).map g = ps.map name := by
  induction ps generalizing a s with
  | nil => rfl
  | cons p ps ih =>
    obtain ⟨a', s', hf⟩ := hok p List.mem_cons_self a s
    rw [List.map_cons, given, hf, onOk, List.map_cons, List.map_cons, hname p List.mem_cons_self,
      ih (fun q hq => hname q (List.mem_cons_of_mem p hq))
        (fun q hq => hok q (List.mem_cons_of_mem p hq))]

/-! ### Rounds -/

/-- A round of visits about an outcome: everybody in `order`, and the first is
told the outcome itself. -/
def Visited (order : List ι) (outcome : ρ) (round : List (ι × ρ)) : Prop :=
  round.map Prod.fst = order ∧ ∀ v ∈ round.head?, v.2 = outcome

/-- **A round of steps that do not fail** visits everybody. -/
theorem visited_given {γ : Type u} {g : β → ι × ρ} {ps : List γ} {note : γ → α → β}
    {f : γ → Step ε σ α} {name : γ → ι} {outcome : ρ} {a : α}
    (hname : ∀ p ∈ ps, ∀ a, (g (note p a)).1 = name p)
    (hok : ∀ p ∈ ps, ∀ a s, ∃ a' s', f p a s = (.ok a', s'))
    (hout : ∀ p ∈ ps, (g (note p a)).2 = outcome) (s : σ) :
    Visited (ps.map name) outcome ((given (ps.map fun p => (note p, f p)) a s).map g) := by
  constructor
  · have hfst : ∀ p ∈ ps, ∀ a, (Prod.fst ∘ g) (note p a) = name p := hname
    rw [List.map_map, map_given_of_ok hfst hok]
  · intro v hv
    rw [List.head?_map, head?_given, List.head?_map] at hv
    cases ps with
    | nil => cases hv
    | cons p ps =>
      cases hv
      exact hout p List.mem_cons_self

/-- One round for each outcome. -/
def AllVisited (order : List ι) (outcomes : List ρ) (log : List (ι × ρ)) : Prop :=
  ∃ rounds, List.Forall₂ (Visited order) outcomes rounds ∧ log = rounds.flatten

/-- So many outcomes, so many rounds. -/
theorem AllVisited.length_eq {order : List ι} {outcomes : List ρ} {log : List (ι × ρ)}
    (h : AllVisited order outcomes log) : log.length = outcomes.length * order.length := by
  obtain ⟨rounds, hrounds, rfl⟩ := h
  induction hrounds with
  | nil => rw [List.flatten_nil, List.length_nil, List.length_nil, Nat.zero_mul]
  | cons hround _ ih =>
    rw [List.flatten_cons, List.length_append, ih, ← hround.1, List.length_map, List.length_cons]
    ring

/-- With nobody to visit, nothing is left to be done. -/
theorem allVisited_nil (outcomes : List ρ) : AllVisited ([] : List ι) outcomes [] := by
  induction outcomes with
  | nil => exact ⟨[], .nil, rfl⟩
  | cons outcome outcomes ih =>
    obtain ⟨rounds, hrounds, hnil⟩ := ih
    refine ⟨[] :: rounds, .cons ⟨rfl, fun v hv => ?_⟩ hrounds, hnil⟩
    cases hv

theorem allVisited_singleton {order : List ι} {outcome : ρ} {round : List (ι × ρ)}
    (h : Visited order outcome round) : AllVisited order [outcome] round :=
  ⟨[round], .cons h .nil, (List.append_nil round).symm⟩

/-- Somebody is left out where nobody is visited. -/
theorem not_allVisited_singleton {order : List ι} (hne : order ≠ []) (outcome : ρ) :
    ¬ AllVisited order [outcome] [] := by
  intro hall
  have hlength := hall.length_eq
  rw [List.length_nil, List.length_singleton, Nat.one_mul, eq_comm,
    List.length_eq_zero_iff] at hlength
  exact hne hlength

theorem AllVisited.cons {order : List ι} {outcome : ρ} {outcomes : List ρ}
    {round log : List (ι × ρ)} (h : Visited order outcome round)
    (hs : AllVisited order outcomes log) :
    AllVisited order (outcome :: outcomes) (round ++ log) := by
  obtain ⟨rounds, hrounds, rfl⟩ := hs
  exact ⟨round :: rounds, .cons h hrounds, rfl⟩

end Chain
