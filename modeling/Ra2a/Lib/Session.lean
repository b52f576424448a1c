import Mathlib.Data.List.Forall2
import Mathlib.Data.List.Induction

/-!
# Sessions

A client puts one question after another to a server.  What it means to ask is
an `O`; the question itself, a `Q`, may depend on the replies so far.  A server
is a relation: what it may reply in a state, and the state it is in afterwards.
A transcript pairs each thing asked with its reply.

`Run.related` compares two servers.  If the states stay related as long as the
replies agree, and agreeing replies follow from related states, then two whole
sessions agree reply by reply.
-/

namespace Session

universe u v w x u' v' w' x'

variable {σ : Type u} {O : Type v} {Q : Type w} {R : Type x}

/-- The sessions of a server: the transcript, and the state at the end. -/
inductive Run (answers : σ → Q → R → σ → Prop) (ask : List R → O → Q) (s₀ : σ) :
    List (O × R) → σ → Prop
  | nil : Run answers ask s₀ [] s₀
  | snoc {past : List (O × R)} {s s' : σ} {o : O} {r : R} (prior : Run answers ask s₀ past s)
      (h : answers s (ask (past.map Prod.snd) o) r s') :
      Run answers ask s₀ (past ++ [(o, r)]) s'

/-- Lists related place by place are related up to and at their last place. -/
theorem forall₂_concat_iff {α : Type u} {β : Type v} {P : α → β → Prop} {xs : List α}
    {ys : List β} {a : α} {b : β} :
    List.Forall₂ P (xs ++ [a]) (ys ++ [b]) ↔ List.Forall₂ P xs ys ∧ P a b := by
  rw [← List.forall₂_reverse_iff, List.reverse_append, List.reverse_append,
    List.reverse_singleton, List.reverse_singleton, List.singleton_append,
    List.singleton_append, List.forall₂_cons, List.forall₂_reverse_iff, and_comm]

/-- Lists with the same image are related place by place. -/
theorem forall₂_of_map_eq {α : Type u} {β : Type v} {γ : Type w} {f : α → γ} {g : β → γ}
    {xs : List α} {ys : List β} (h : xs.map f = ys.map g) :
    List.Forall₂ (fun a b => f a = g b ∧ a ∈ xs ∧ b ∈ ys) xs ys := by
  induction xs generalizing ys with
  | nil =>
    rw [List.map_nil, eq_comm, List.map_eq_nil_iff] at h
    subst h
    exact List.Forall₂.nil
  | cons a xs ih =>
    cases ys with
    | nil => cases h
    | cons b ys =>
      rw [List.map_cons, List.map_cons, List.cons.injEq] at h
      refine List.Forall₂.cons ⟨h.1, List.mem_cons_self, List.mem_cons_self⟩ ?_
      exact (ih h.2).imp fun x y ⟨hxy, hx, hy⟩ =>
        ⟨hxy, List.mem_cons_of_mem a hx, List.mem_cons_of_mem b hy⟩

namespace Run

variable {answers : σ → Q → R → σ → Prop} {ask : List R → O → Q} {s₀ s : σ}
  {past : List (O × R)}

/-- What holds of each exchange of every server holds along a session. -/
theorem forall_mem {P : O × R → Prop}
    (hstep : ∀ {past : List (O × R)} {s s' : σ} {o : O} {r : R},
      answers s (ask (past.map Prod.snd) o) r s' → P (o, r))
    (h : Run answers ask s₀ past s) : ∀ x ∈ past, P x := by
  induction h with
  | nil =>
    intro x hx
    cases hx
  | snoc _ hans ih =>
    intro x hx
    rcases List.mem_append.mp hx with hx | hx
    · exact ih x hx
    · obtain rfl := List.mem_singleton.mp hx
      exact hstep hans

/-- With nothing asked the server is where it began. -/
theorem eq_of_nil (h : Run answers ask s₀ [] s) : s = s₀ := by
  generalize hnil : ([] : List (O × R)) = past at h
  cases h with
  | nil => rfl
  | snoc prior hans => simp at hnil

/-- The last exchange of a session, and what was before it. -/
theorem of_concat {ops : List O} {o : O} (h : Run answers ask s₀ past s)
    (hops : past.map Prod.fst = ops ++ [o]) :
    ∃ before t r, Run answers ask s₀ before t ∧ before.map Prod.fst = ops ∧
      past = before ++ [(o, r)] ∧ answers t (ask (before.map Prod.snd) o) r s := by
  cases h with
  | nil => simp at hops
  | @snoc before t _ o' r prior hans =>
    rw [List.map_append] at hops
    obtain ⟨hbefore, ho⟩ := List.append_inj' hops rfl
    cases ho
    exact ⟨before, t, r, prior, hbefore, rfl, hans⟩

/-- A server that always answers takes any further questions. -/
theorem exists_append (htotal : ∀ s q, ∃ r s', answers s q r s') (h : Run answers ask s₀ past s)
    (ops : List O) :
    ∃ more s', Run answers ask s₀ (past ++ more) s' ∧ more.map Prod.fst = ops := by
  induction ops using List.reverseRecOn with
  | nil =>
    refine ⟨[], s, ?_, rfl⟩
    rwa [List.append_nil]
  | append_singleton ops o ih =>
    obtain ⟨more, s', hrun, hops⟩ := ih
    obtain ⟨r, s'', hans⟩ := htotal s' (ask ((past ++ more).map Prod.snd) o)
    refine ⟨more ++ [(o, r)], s'', ?_, ?_⟩
    · rw [← List.append_assoc]
      exact hrun.snoc hans
    · rw [List.map_append, hops]
      rfl

section Related

variable {τ : Type u'} {O' : Type v'} {Q' : Type w'} {R' : Type x'}
  {answers' : τ → Q' → R' → τ → Prop} {ask' : List R' → O' → Q'} {t₀ t : τ}
  {past' : List (O' × R')}
  {Rel : σ → τ → Prop} {Matched Agree : O × R → O' × R' → Prop}

/-- **Two sessions agree** if the servers start related and every pair of matched
exchanges keeps them related and agrees. -/
theorem related (h₀ : Rel s₀ t₀)
    (hstep : ∀ {past : List (O × R)} {past' : List (O' × R')} {s s' : σ} {t t' : τ} {o : O}
      {o' : O'} {r : R} {r' : R'}, Rel s t → List.Forall₂ Agree past past' →
      Matched (o, r) (o', r') → answers s (ask (past.map Prod.snd) o) r s' →
      answers' t (ask' (past'.map Prod.snd) o') r' t' → Rel s' t' ∧ Agree (o, r) (o', r'))
    (h : Run answers ask s₀ past s) (h' : Run answers' ask' t₀ past' t)
    (hmatched : List.Forall₂ Matched past past') : Rel s t ∧ List.Forall₂ Agree past past' := by
  induction h generalizing past' t with
  | nil =>
    cases hmatched
    obtain rfl := h'.eq_of_nil
    exact ⟨h₀, List.Forall₂.nil⟩
  | snoc prior hans ih =>
    cases h' with
    | nil => exact absurd hmatched.length_eq (by simp)
    | snoc prior' hans' =>
      obtain ⟨hpast, hlast⟩ := forall₂_concat_iff.mp hmatched
      obtain ⟨hrel, hagree⟩ := ih prior' hpast
      obtain ⟨hrel', hagree'⟩ := hstep hrel hagree hlast hans hans'
      exact ⟨hrel', forall₂_concat_iff.mpr ⟨hagree, hagree'⟩⟩

end Related

end Run

end Session
