import Ra2a.Server.Handler.Waiting

/-!
# Who keeps a queue

A queue has a sender as long as the queue manager maps it, a call keeps it or an
execution writes to it.  The first two come to keep a queue only by getting it
from the map, and a queue enters the map only when it is made, so one that nobody
keeps is never kept again (`kept_step`).  Once the executions of its task have
finished too it has no sender (`hasSender_eq_false`).
-/

namespace Ra2a

open Broadcast Interleave

/-- The queue manager or a call keeps queue `q`. -/
def Kept (c : ServerConfig) (q : ℕ) : Prop :=
  (∃ k, c.shared.queueManager.getQueue k = some q) ∨
    ∃ (j : ℕ) (r : Request), c.threads[j]? = some (.request r) ∧
      (Thread.request r).holdsSender q = true

/-- Every execution for the task of queue `q` has finished. -/
def AtRest (c : ServerConfig) (q : ℕ) : Prop :=
  ∀ (j : ℕ) (x : Execution), c.threads[j]? = some (.execution x) →
    c.shared.queueManager.key q = some x.key → x.pc.isFinished = true

/-- The moves that finish an execution. -/
def Execution.finishes (x : Execution) : Move → Bool
  | .tick _ =>
    match x.pc with
    | .echoing _ => true
    | _ => false
  | m => m.ends

section

variable {c : ServerConfig} {h' : DefaultRequestHandler} {new : List Thread} {i : ℕ} {m : Move}
  {t t' : Thread} {q : ℕ}

/-- A queue that a request comes to hold was mapped, or there was no such queue. -/
theorem Request.Step.holds {r r' : Request} {threads : List Thread} {h : DefaultRequestHandler}
    (hs : r.Step h threads i h' r' new) (hholds : (Thread.request r').holdsSender q = true) :
    (Thread.request r).holdsSender q = true ∨ (∃ k, h.queueManager.getQueue k = some q) ∨
      h.queueManager.key q = none := by
  cases hs with
  | queue key ctx p m hpc hq =>
    have hp : p = q := by simpa [Thread.holdsSender] using hholds
    subst hp
    rcases QueueManager.getOrCreateQueue_cases hq with ⟨hk, -⟩ | ⟨-, rfl, -⟩
    · exact Or.inr (Or.inl ⟨key, hk⟩)
    · exact Or.inr (Or.inr (by rw [QueueManager.key, List.getElem?_eq_none le_rfl]; rfl))
  | find params p hpc hcall hq =>
    have hp : p = q := by simpa [Thread.holdsSender] using hholds
    subst hp
    exact Or.inr (Or.inl ⟨params.id, hq⟩)
  | spawnSend _ _ _ _ _ hpc | spawnCancel _ _ _ _ _ hpc =>
    left
    simpa [Thread.holdsSender, hpc] using hholds
  | receive _ _ _ _ hpc | lag _ _ _ _ hpc | close _ _ _ hpc | persist _ _ _ hpc
  | read _ _ _ _ _ hpc | skip _ _ _ hpc | update _ _ _ _ hpc | list _ _ _ _ hpc
  | nobody _ _ _ _ hpc | push _ _ _ _ _ _ hpc | pushLast _ _ _ _ _ _ hpc | goOn _ _ _ hpc
  | answer _ _ _ _ hpc | finalize _ _ _ _ hpc =>
    left
    simpa [Thread.holdsSender, hpc] using hholds
  | _ => cases hholds

/-- **A queue that nobody keeps is never kept again.** -/
theorem kept_step (ht : c.threads[i]? = some t)
    (ha : server.advance c.shared c.threads i m t = some (h', t', new)) {k : String}
    (hk : c.shared.queueManager.key q = some k) (h : Kept ⟨h', c.threads.set i t' ++ new⟩ q) :
    Kept c q := by
  rcases h with ⟨k', hk'⟩ | ⟨j, r, hj, hholds⟩
  · left
    change h'.queueManager.getQueue k' = some q at hk'
    rcases cases_of_step ha with ⟨r, r', rfl, rfl, hs, -⟩ | ⟨x, x', rfl, rfl, rfl, hs⟩ |
      ⟨g, rfl, -, rfl, rfl, rfl⟩
    · rcases hs.queueManager with he | ⟨key, ctx, p, -, -, hq⟩ | ⟨removes, col, resp, -, he⟩
      · exact ⟨k', by rw [← he, hk']⟩
      · exact ⟨k', QueueManager.getQueue_before_getOrCreateQueue hq hk hk'⟩
      · rw [he, QueueManager.getQueue_removeQueue] at hk'
        split at hk'
        · cases hk'
        · exact ⟨k', hk'⟩
    · refine ⟨k', ?_⟩
      rw [hs.queueManager] at hk'
      split at hk'
      · exact hk'
      · exact hk'
    · exact ⟨k', hk'⟩
  · rcases Machine.getElem?_moved hj with ⟨rfl, rfl⟩ | ⟨-, hj⟩ | ⟨-, hj⟩
    · rcases cases_of_step ha with ⟨r₀, r', rfl, he, hs, -⟩ | ⟨x, x', -, he, -⟩ | ⟨g, -, -, he, -⟩
      · cases he
        rcases hs.holds hholds with hold | hmap | hnone
        · exact Or.inr ⟨j, r₀, ht, hold⟩
        · exact Or.inl hmap
        · rw [hk] at hnone
          cases hnone
      · cases he
      · cases he
    · exact Or.inr ⟨j, r, hj, hholds⟩
    · exact absurd (List.mem_of_getElem? hj) (not_request_new ha)

/-- A task is at rest after a step when it was before, or the step finished its
last execution. -/
theorem atRest_step (ht : c.threads[i]? = some t)
    (ha : server.advance c.shared c.threads i m t = some (h', t', new)) {k : String}
    (hk : c.shared.queueManager.key q = some k)
    (h : AtRest ⟨h', c.threads.set i t' ++ new⟩ q) :
    AtRest c q ∨ ∃ x, t = .execution x ∧ x.key = k ∧ x.finishes m = true ∧
      ∀ (j : ℕ) (y : Execution), j ≠ i → c.threads[j]? = some (.execution y) → y.key = x.key →
        y.pc.isFinished = true := by
  have hk' : h'.queueManager.key q = some k := key_step ha hk
  have hothers : ∀ (j : ℕ) (y : Execution), j ≠ i → c.threads[j]? = some (.execution y) →
      c.shared.queueManager.key q = some y.key → y.pc.isFinished = true := by
    intro j y hj hy hkey
    rw [hk] at hkey
    exact h j y (Machine.getElem?_of_ne hy hj) (hk'.trans hkey)
  by_cases hmoves : ∃ x, t = .execution x ∧ x.key = k
  · obtain ⟨x, rfl, hkey⟩ := hmoves
    right
    refine ⟨x, rfl, hkey, ?_, fun j y hj hy hyx => hothers j y hj hy ?_⟩
    · rcases cases_of_step ha with ⟨r, r', he, -⟩ | ⟨y, x', he, rfl, rfl, hs⟩ | ⟨g, he, -⟩
      · cases he
      · cases he
        have hfin : x'.pc.isFinished = true := by
          refine h i x' (Machine.getElem?_self ht) ?_
          rw [hs.same.key, hkey]
          exact hk'
        cases hs with
        | succeed | panic | abort => rfl
        | echo task tick hpc => simp [Execution.finishes, hpc]
        | emit e hpc => rw [hpc] at hfin; cases hfin
        | fail | save => cases hfin
      · cases he
    · rw [hk, hyx, hkey]
  · left
    intro j y hy hkey
    by_cases hj : j = i
    · subst hj
      rw [ht] at hy
      cases hy
      rw [hk] at hkey
      exact absurd ⟨y, rfl, (Option.some.inj hkey).symm⟩ hmoves
    · exact hothers j y hj hy hkey

/-- A queue that nobody keeps, of a task at rest, has no sender. -/
theorem hasSender_eq_false (hlinked : Machine.Reach.Each LinkedThread c) (hrest : AtRest c q)
    (hkept : ¬ Kept c q) : c.shared.hasSender c.threads q = false := by
  rw [DefaultRequestHandler.hasSender, Bool.or_eq_false_iff]
  constructor
  · exact Bool.eq_false_of_not_eq_true fun hmaps =>
      hkept (Or.inl (QueueManager.maps_iff.mp hmaps))
  · rw [List.any_eq_false]
    intro t ht hholds
    obtain ⟨j, hj⟩ := List.getElem?_of_mem ht
    cases t with
    | request r => exact hkept (Or.inr ⟨j, r, hj, hholds⟩)
    | execution x =>
      have hkey : c.shared.queueManager.key x.queue = some x.key := hlinked j _ hj
      obtain ⟨hopen, hq⟩ : x.pc.isFinished = false ∧ x.queue = q := by
        simpa [Thread.holdsSender] using hholds
      rw [hq] at hkey
      rw [hrest j x hj hkey] at hopen
      cases hopen
    | registration g => cases hholds

theorem hasSender_of_kept (h : Kept c q) : c.shared.hasSender c.threads q = true := by
  rw [DefaultRequestHandler.hasSender, Bool.or_eq_true]
  rcases h with hmap | ⟨j, r, hj, hholds⟩
  · exact Or.inl (QueueManager.maps_iff.mpr hmap)
  · exact Or.inr (List.any_eq_true.mpr ⟨_, List.mem_of_getElem? hj, hholds⟩)

end

end Ra2a
