import Ra2a.Server.Handler.Aborting
import Ra2a.Server.Handler.Streaming

/-!
# What is left of finished work

Two maps are keyed by task.  A send or a stream puts the handle of its execution
among the running tasks, and only a cancellation of that task takes it out again.
A queue is made for the first request on a task and removed by a send or a
cancellation that answers; a stream removes none, nor does a request that its
client gives up.

So most runs leave something behind.  Nothing is left in a state in which all
work is done if the run has met two conditions: nobody was the last to use a
queue that stayed in the map, and no execution ended whose handle stayed among
the running tasks (`empty_of_quiescent`).
-/

namespace Ra2a

open Broadcast Interleave

/-- No request is in flight, no stream open and no execution running. -/
def Quiescent (c : ServerConfig) : Prop :=
  (∀ (j : ℕ) (r : Request), c.threads[j]? = some (.request r) →
      (∃ o, r.pc = .done o) ∨ r.pc = .dropped) ∧
    ∀ (j : ℕ) (x : Execution), c.threads[j]? = some (.execution x) → x.pc.isFinished = true

/-- Nothing is kept for any task. -/
def KeepsNothing (h : DefaultRequestHandler) : Prop :=
  h.runningTasks = ∅ ∧ h.queueManager.queues = ∅

/-! ### The condition -/

/-- The thread works with queue `q`: it keeps a sender of it, or is a stream of
it. -/
def Thread.uses (q : ℕ) (t : Thread) : Bool :=
  t.holdsSender q ||
    match t with
    | .request r =>
      match r.pc with
      | .streaming q' _ => q' = q
      | _ => false
    | _ => false

/-- Somebody else than thread `i` works with queue `q`. -/
def UsedBeside (c : ServerConfig) (i q : ℕ) : Prop :=
  ∃ (j : ℕ) (t : Thread), j ≠ i ∧ c.threads[j]? = some t ∧ t.uses q = true

/-- Execution `j` has not finished. -/
def Runs (c : ServerConfig) (j : ℕ) : Prop :=
  ∃ x, c.threads[j]? = some (.execution x) ∧ x.pc.isFinished = false

/-- Request `j` is a cancellation that is about to take the handle of task `k`. -/
def TakesHandle (c : ServerConfig) (k : TaskId) (j : ℕ) : Prop :=
  ∃ r task params, c.threads[j]? = some (.request r) ∧ r.pc = .canceling task ∧
    r.call = .cancelTask params ∧ params.id = k

/-- A step after which what is kept is kept for somebody. -/
structure LeavesNothing (c : ServerConfig) (l : Label Thread Move) : Prop where
  givesUp : ∀ i r q k, l = .run i .drop → c.threads[i]? = some (.request r) →
    (Thread.request r).uses q = true → c.shared.queueManager.getQueue k = some q →
    UsedBeside c i q
  answers : ∀ i tick r removes col resp k, l = .run i (.tick tick) →
    c.threads[i]? = some (.request r) → r.pc = .returning removes col resp →
    c.shared.queueManager.getQueue k = some col.queue → k ≠ removes → UsedBeside c i col.queue
  ends : ∀ i m x k, l = .run i m → c.threads[i]? = some (.execution x) → x.finishes m = true →
    c.shared.queueManager.getQueue k = some x.queue → UsedBeside c i x.queue
  endsTaken : ∀ i m x k, l = .run i m → c.threads[i]? = some (.execution x) →
    x.finishes m = true → c.shared.runningTasks.lookup k = some i → ∃ j, TakesHandle c k j
  registers : ∀ i tick g, l = .run i (.tick tick) → c.threads[i]? = some (.registration g) →
    Runs c g.execution ∨ ∃ j, TakesHandle c g.taskId j
  takes : ∀ i k j, l = .run i .drop → TakesHandle c k i → c.shared.runningTasks.lookup k = some j →
    Runs c j ∨ ∃ i', i' ≠ i ∧ TakesHandle c k i'

/-! ### The invariant -/

/-- Whatever is kept for a task is kept for somebody. -/
structure KeptForUse (c : ServerConfig) : Prop where
  queues : ∀ k q, c.shared.queueManager.getQueue k = some q →
    ∃ (j : ℕ) (t : Thread), c.threads[j]? = some t ∧ t.uses q = true
  running : ∀ k j, c.shared.runningTasks.lookup k = some j → Runs c j ∨ ∃ i, TakesHandle c k i

section

variable {c : ServerConfig} {h' : DefaultRequestHandler} {new : List Thread} {i : ℕ} {m : Move}
  {t t' : Thread} {q : ℕ} {k : TaskId}

theorem UsedBeside.step (h : UsedBeside c i q) :
    ∃ (j : ℕ) (u : Thread), (c.threads.set i t' ++ new)[j]? = some u ∧ u.uses q = true := by
  obtain ⟨j, u, hji, hj, huses⟩ := h
  exact ⟨j, u, Machine.getElem?_of_ne hj hji, huses⟩

/-- What becomes of the use of a queue when a request takes a step: it goes on, or
the client gives up, or the request returns, or it is a stream that ends. -/
theorem Request.Step.uses {r r' : Request} (hs : r.Step c.shared c.threads i h' r' new)
    (hi : c.threads[i]? = some (.request r)) (hheard : r.Heard)
    (huses : (Thread.request r).uses q = true) :
    (Thread.request r').uses q = true ∨ r'.pc = .dropped ∨
      (∃ removes col resp, r.pc = .returning removes col resp ∧ col.queue = q ∧
        h'.queueManager = c.shared.queueManager.removeQueue removes) ∨
      c.shared.hasSender c.threads q = false := by
  cases hs with
  | drop => exact Or.inr (Or.inl rfl)
  | finish removes col resp hpc =>
    refine Or.inr (Or.inr (Or.inl ⟨removes, col, resp, hpc, ?_, rfl⟩))
    simpa [Thread.uses, Thread.holdsSender, hpc] using huses
  | endStream p pos pos' hpc hrecv =>
    right; right; right
    obtain ⟨ch, -, -, hch⟩ := DefaultRequestHandler.of_recv hrecv
    have hp : p = q := by simpa [Thread.uses, Thread.holdsSender, hpc] using huses
    rw [← hp]
    simpa using (Channel.recv_closed hch).1
  | close removes col pos hpc hrecv =>
    exact absurd hrecv (not_closed_while_collecting hi hpc pos)
  | failClosed removes col e tick hpc =>
    exact absurd hpc hheard.not_closing
  | refuse e hpc =>
    rcases hpc with hpc | ⟨key, ctx, n, hpc⟩ | hpc <;>
      simp [Thread.uses, Thread.holdsSender, hpc] at huses
  | resolve _ _ _ hpc | configure _ _ _ hpc | intercept _ _ _ _ _ hpc | intercepted _ _ _ hpc
  | accept _ _ hpc | abort _ _ hpc | queue _ _ _ _ hpc | panic _ _ hpc | locate _ _ hpc
  | find _ _ hpc => simp [Thread.uses, Thread.holdsSender, hpc] at huses
  | spawnSend _ _ _ _ _ hpc | spawnStream _ _ _ _ hpc | spawnCancel _ _ _ _ _ hpc
  | receive _ _ _ _ hpc | lag _ _ _ _ hpc | persist _ _ _ hpc | read _ _ _ _ _ hpc
  | skip _ _ _ hpc | update _ _ _ _ hpc | list _ _ _ _ hpc | nobody _ _ _ _ hpc
  | push _ _ _ _ _ _ hpc | pushLast _ _ _ _ _ _ hpc | goOn _ _ _ hpc | answer _ _ _ _ hpc
  | finalize _ _ _ _ hpc | subscribe _ hpc | deliver _ _ _ _ hpc | deliverLag _ _ _ _ hpc =>
    left
    simpa [Thread.uses, Thread.holdsSender, hpc] using huses

/-- An execution that has finished after a step has been finished by it. -/
theorem Execution.Step.finishes {h : DefaultRequestHandler} {x x' : Execution}
    (hs : x.Step h i m h' x') (hfin : x'.pc.isFinished = true) : x.finishes m = true := by
  cases hs with
  | succeed | panic | abort => rfl
  | echo task tick hpc => simp [Execution.finishes, hpc]
  | emit e hpc => rw [hpc] at hfin; cases hfin
  | fail | save => cases hfin

/-- The handles that are left when a cancellation has taken its own. -/
theorem lookup_abortRunning {h : DefaultRequestHandler} {k' : TaskId} {j : ℕ}
    (hj : (h.abortRunning k').runningTasks.lookup k = some j) :
    k ≠ k' ∧ h.runningTasks.lookup k = some j := by
  unfold DefaultRequestHandler.abortRunning at hj
  split at hj
  · rename_i hnone
    refine ⟨?_, hj⟩
    rintro rfl
    rw [hnone] at hj
    cases hj
  · by_cases hk : k = k'
    · subst hk
      change (h.runningTasks.erase k).lookup k = some j at hj
      rw [Finmap.lookup_erase] at hj
      cases hj
    · change (h.runningTasks.erase k').lookup k = some j at hj
      rw [Finmap.lookup_erase_ne hk] at hj
      exact ⟨hk, hj⟩

/-- A mapping after the step of a request was there before, or the request has just
got the queue. -/
theorem Request.Step.getQueue_cases {r r' : Request}
    (hs : r.Step c.shared c.threads i h' r' new) (hk : h'.queueManager.getQueue k = some q) :
    c.shared.queueManager.getQueue k = some q ∨ ∃ ctx, r' = r.goto (.queued k ctx q) := by
  rcases hs.queueManager with he | ⟨key, ctx, p, -, rfl, hq⟩ | ⟨removes, col, resp, -, he⟩
  · rw [he] at hk
    exact Or.inl hk
  · rcases QueueManager.getOrCreateQueue_cases hq with ⟨-, he⟩ | ⟨-, rfl, queue, -, rfl, he⟩
    · rw [he] at hk
      exact Or.inl hk
    · rw [he, QueueManager.getQueue_add] at hk
      split at hk
      · subst k
        cases hk
        exact Or.inr ⟨ctx, rfl⟩
      · exact Or.inl hk
  · rw [he, QueueManager.getQueue_removeQueue] at hk
    split at hk
    · cases hk
    · exact Or.inl hk

/-- The queues after the step of a request. -/
theorem KeptForUse.queues_request {r r' : Request} (hI : KeptForUse c) (hheard : r.Heard)
    (hok : LeavesNothing c (.run i m)) (hi : c.threads[i]? = some (.request r))
    (ha : server.advance c.shared c.threads i m (.request r) = some (h', .request r', new))
    (hs : r.Step c.shared c.threads i h' r' new) (hk : h'.queueManager.getQueue k = some q) :
    ∃ (j : ℕ) (u : Thread), (c.threads.set i (.request r') ++ new)[j]? = some u ∧
      u.uses q = true := by
  rcases hs.getQueue_cases hk with hold | ⟨ctx, rfl⟩
  · obtain ⟨j, u, hj, huses⟩ := hI.queues k q hold
    by_cases hji : j = i
    · subst hji
      rw [hi] at hj
      cases hj
      by_cases hdrop : r'.pc = .dropped
      · obtain rfl := (dropped_iff ha).mp hdrop
        exact (hok.givesUp j r q k rfl hi huses hold).step
      rcases hs.uses hi hheard huses with huses | hdrop' | ⟨removes, col, resp, hpc, rfl, he⟩ | hno
      · exact ⟨j, _, Machine.getElem?_self hi, huses⟩
      · exact absurd hdrop' hdrop
      · have hne : k ≠ removes := by
          rintro rfl
          rw [he, QueueManager.getQueue_removeQueue, if_pos rfl] at hk
          cases hk
        cases m with
        | tick tick => exact (hok.answers j tick r removes col resp k rfl hi hpc hold hne).step
        | drop => exact absurd ((dropped_iff ha).mpr rfl) hdrop
        | _ => cases ha
      · -- a stream ends only when its queue is not mapped any more
        have hmaps : c.shared.queueManager.maps q = true := QueueManager.maps_iff.mpr ⟨k, hold⟩
        rw [DefaultRequestHandler.hasSender, hmaps, Bool.true_or] at hno
        cases hno
    · exact ⟨j, u, Machine.getElem?_of_ne hj hji, huses⟩
  · exact ⟨i, _, Machine.getElem?_self hi, by simp [Thread.uses, Thread.holdsSender]⟩

/-- The handles that are left by the step of a request: a cancellation takes that
of its task. -/
theorem Request.Step.lookup_runningTasks {r r' : Request} {j : ℕ}
    (hs : r.Step c.shared c.threads i h' r' new) (hj : h'.runningTasks.lookup k = some j) :
    c.shared.runningTasks.lookup k = some j ∧
      ∀ task params, r.pc = .canceling task → r.call = .cancelTask params → r'.pc ≠ .dropped →
        params.id ≠ k := by
  cases hs with
  | abort params task hpc hcall =>
    obtain ⟨hne, hold⟩ := lookup_abortRunning hj
    refine ⟨hold, fun task' params' _ hcall' _ => ?_⟩
    rw [hcall] at hcall'
    cases hcall'
    exact Ne.symm hne
  | drop => exact ⟨hj, fun _ _ _ _ hlive => absurd rfl hlive⟩
  | configure params ctx tick hpc hcall =>
    obtain ⟨_, he⟩ := c.shared.saveInlinePushConfig_eq params ctx.taskId tick
    rw [he] at hj
    exact ⟨hj, fun _ _ hpc' => by rw [hpc] at hpc'; cases hpc'⟩
  | refuse e hpc =>
    refine ⟨hj, fun _ _ hpc' => ?_⟩
    rcases hpc with hpc | ⟨key, ctx, n, hpc⟩ | hpc <;> rw [hpc] at hpc' <;> cases hpc'
  | _ =>
    refine ⟨hj, fun _ _ hpc' => ?_⟩
    simp_all

/-- The handles after the step of a request. -/
theorem KeptForUse.running_request {r r' : Request} {j : ℕ} (hI : KeptForUse c)
    (hok : LeavesNothing c (.run i m)) (hi : c.threads[i]? = some (.request r))
    (ha : server.advance c.shared c.threads i m (.request r) = some (h', .request r', new))
    (hs : r.Step c.shared c.threads i h' r' new) (hj : h'.runningTasks.lookup k = some j) :
    Runs ⟨h', c.threads.set i (.request r') ++ new⟩ j ∨
      ∃ i', TakesHandle ⟨h', c.threads.set i (.request r') ++ new⟩ k i' := by
  have hruns : Runs c j → Runs ⟨h', c.threads.set i (.request r') ++ new⟩ j := by
    rintro ⟨x, hx, hopen⟩
    refine ⟨x, Machine.getElem?_of_ne hx ?_, hopen⟩
    rintro rfl
    rw [hi] at hx
    cases hx
  have htakes : ∀ {i'}, i' ≠ i → TakesHandle c k i' →
      TakesHandle ⟨h', c.threads.set i (.request r') ++ new⟩ k i' := by
    rintro i' hne ⟨r₀, task, params, hr₀, hrest⟩
    exact ⟨r₀, task, params, Machine.getElem?_of_ne hr₀ hne, hrest⟩
  obtain ⟨hold, htaken⟩ := hs.lookup_runningTasks hj
  rcases hI.running k j hold with hrun | ⟨i', htake⟩
  · exact Or.inl (hruns hrun)
  · by_cases hne : i' = i
    · subst hne
      by_cases hdrop : m = .drop
      · subst hdrop
        rcases hok.takes i' k j rfl htake hold with hrun | ⟨i₂, hne, htake⟩
        · exact Or.inl (hruns hrun)
        · exact Or.inr ⟨i₂, htakes hne htake⟩
      · obtain ⟨r₀, task, params, hr₀, hpc, hcall, hid⟩ := htake
        rw [hi] at hr₀
        cases hr₀
        exact absurd hid (htaken task params hpc hcall (by rwa [ne_eq, dropped_iff ha]))
    · exact Or.inr ⟨i', htakes hne htake⟩

/-- A step of an execution. -/
theorem KeptForUse.execution {x x' : Execution} (hI : KeptForUse c)
    (hok : LeavesNothing c (.run i m)) (ht : c.threads[i]? = some (.execution x))
    (hs : x.Step c.shared i m h' x') :
    KeptForUse ⟨h', c.threads.set i (.execution x') ++ []⟩ := by
  have hself : (c.threads.set i (Thread.execution x') ++ [])[i]? = some (.execution x') :=
    Machine.getElem?_self ht
  constructor
  · intro k q hk
    have hold : c.shared.queueManager.getQueue k = some q := by
      change h'.queueManager.getQueue k = some q at hk
      rw [hs.queueManager] at hk
      split at hk <;> exact hk
    obtain ⟨j, u, hj, huses⟩ := hI.queues k q hold
    by_cases hji : j = i
    · subst hji
      rw [ht] at hj
      cases hj
      have hq : x.queue = q := by
        simp only [Thread.uses, Thread.holdsSender, Bool.or_false, Bool.and_eq_true,
          decide_eq_true_eq] at huses
        exact huses.2
      subst hq
      by_cases hfin : x'.pc.isFinished = true
      · exact (hok.ends j m x k rfl ht (hs.finishes hfin) hold).step
      · exact ⟨j, _, hself, by simp [Thread.uses, Thread.holdsSender, hfin, hs.same.queue]⟩
    · exact ⟨j, u, Machine.getElem?_of_ne hj hji, huses⟩
  · intro k j hj
    have hold : c.shared.runningTasks.lookup k = some j := by cases hs <;> exact hj
    have htakes : (∃ i', TakesHandle c k i') →
        ∃ i', TakesHandle ⟨h', c.threads.set i (.execution x') ++ []⟩ k i' := by
      rintro ⟨i', r, task, params, hr, hrest⟩
      refine ⟨i', r, task, params, Machine.getElem?_of_ne hr ?_, hrest⟩
      rintro rfl
      rw [ht] at hr
      cases hr
    rcases hI.running k j hold with ⟨y, hy, hopen⟩ | htake
    · by_cases hji : j = i
      · subst hji
        by_cases hfin : x'.pc.isFinished = true
        · exact Or.inr (htakes (hok.endsTaken j m x k rfl ht (hs.finishes hfin) hold))
        · exact Or.inl ⟨x', hself, by simpa using hfin⟩
      · exact Or.inl ⟨y, Machine.getElem?_of_ne hy hji, hopen⟩
    · exact Or.inr (htakes htake)

/-- A handle is put among the running tasks. -/
theorem KeptForUse.registration {g g' : Registration} (hI : KeptForUse c)
    (ht : c.threads[i]? = some (.registration g))
    (hregisters : Runs c g.execution ∨ ∃ j, TakesHandle c g.taskId j) :
    KeptForUse
      ⟨{ c.shared with runningTasks := c.shared.runningTasks.insert g.taskId g.execution },
        c.threads.set i (.registration g') ++ []⟩ := by
  have hother : ∀ {j : ℕ} {u : Thread}, c.threads[j]? = some u → u ≠ .registration g →
      (c.threads.set i (.registration g') ++ [])[j]? = some u := by
    intro j u hu hne
    refine Machine.getElem?_of_ne hu ?_
    rintro rfl
    rw [ht] at hu
    exact hne (Option.some.inj hu).symm
  have hkept : ∀ {h k j}, (Runs c j ∨ ∃ i', TakesHandle c k i') →
      Runs ⟨h, c.threads.set i (.registration g') ++ []⟩ j ∨
        ∃ i', TakesHandle ⟨h, c.threads.set i (.registration g') ++ []⟩ k i' := by
    rintro h k j (⟨x, hx, hopen⟩ | ⟨i', r, task, params, hr, hrest⟩)
    · exact Or.inl ⟨x, hother hx (by simp), hopen⟩
    · exact Or.inr ⟨i', r, task, params, hother hr (by simp), hrest⟩
  constructor
  · intro k q hk
    obtain ⟨j, u, hj, huses⟩ := hI.queues k q hk
    refine ⟨j, u, hother hj ?_, huses⟩
    rintro rfl
    cases huses
  · intro k j hj
    change (c.shared.runningTasks.insert g.taskId g.execution).lookup k = some j at hj
    by_cases hk : k = g.taskId
    · subst hk
      rw [Finmap.lookup_insert] at hj
      cases hj
      exact hkept hregisters
    · rw [Finmap.lookup_insert_of_ne _ hk] at hj
      exact hkept (hI.running k j hj)

/-- One step. -/
theorem KeptForUse.step (hheard : Machine.Reach.Each HeardThread c) (hI : KeptForUse c)
    (hok : LeavesNothing c (.run i m)) (ht : c.threads[i]? = some t)
    (ha : server.advance c.shared c.threads i m t = some (h', t', new)) :
    KeptForUse ⟨h', c.threads.set i t' ++ new⟩ := by
  rcases cases_of_step ha with ⟨r, r', rfl, rfl, hs, -⟩ | ⟨x, x', rfl, rfl, rfl, hs⟩ |
    ⟨g, rfl, -, rfl, rfl, rfl⟩
  · exact ⟨fun k q hk => hI.queues_request (hheard i _ ht) hok ht ha hs hk,
      fun k j hj => hI.running_request hok ht ha hs hj⟩
  · exact hI.execution hok ht hs
  · cases m with
    | tick tick => exact hI.registration ht (hok.registers i tick g rfl ht)
    | _ => cases ha

end

variable {c₀ c : ServerConfig}

/-- **Along the run, what is kept is kept for somebody.** -/
theorem keptForUse_reach (h₀ : Initial c₀) (hr : server.Reach LeavesNothing c₀ c) :
    KeptForUse c := by
  refine (hr.assuming fun _ => heard_reach h₀).invariant ⟨?_, ?_⟩ ?_
  · intro k q hk
    have hkey := QueueManager.key_of_getQueue hk
    rw [QueueManager.key, h₀.heap] at hkey
    cases hkey
  · intro k j hj
    rw [h₀.running, Finmap.lookup_empty] at hj
    cases hj
  · intro c l c' hI hok hs
    rcases Machine.step_cases hs with ⟨t, rfl, -, rfl⟩ | ⟨i, m, t, s', t', new, rfl, ht, ha, rfl⟩
    · refine ⟨fun k q hk => ?_, fun k j hj => ?_⟩
      · obtain ⟨j, u, hj, huses⟩ := hI.queues k q hk
        exact ⟨j, u, Places.getElem?_append_of_some hj, huses⟩
      · rcases hI.running k j hj with ⟨x, hx, hopen⟩ | ⟨i, r, task, params, hr, hrest⟩
        · exact Or.inl ⟨x, Places.getElem?_append_of_some hx, hopen⟩
        · exact Or.inr ⟨i, r, task, params, Places.getElem?_append_of_some hr, hrest⟩
    · exact hI.step hok.1 hok.2 ht ha

/-- A thread at rest works with no queue. -/
theorem Quiescent.uses_eq_false (hq : Quiescent c) {j q : ℕ} {t : Thread}
    (hj : c.threads[j]? = some t) : t.uses q = false := by
  cases t with
  | request r =>
    rcases hq.1 j r hj with ⟨o, hpc⟩ | hpc <;> simp [Thread.uses, Thread.holdsSender, hpc]
  | execution x => simp [Thread.uses, Thread.holdsSender, hq.2 j x hj]
  | registration g => rfl

/-- **Nothing is kept for finished work.** -/
theorem empty_of_quiescent (h₀ : Initial c₀) (hr : server.Reach LeavesNothing c₀ c)
    (hq : Quiescent c) : KeepsNothing c.shared := by
  have hkept := keptForUse_reach h₀ hr
  constructor
  · refine Finmap.ext_lookup fun k => ?_
    rw [Finmap.lookup_empty]
    cases hk : c.shared.runningTasks.lookup k with
    | none => rfl
    | some j =>
      rcases hkept.running k j hk with ⟨x, hx, hopen⟩ | ⟨i, r, task, params, hr, hpc, -⟩
      · rw [hq.2 j x hx] at hopen
        cases hopen
      · rcases hq.1 i r hr with ⟨o, hpc'⟩ | hpc' <;> rw [hpc] at hpc' <;> cases hpc'
  · refine Finmap.ext_lookup fun k => ?_
    rw [Finmap.lookup_empty]
    cases hk : c.shared.queueManager.queues.lookup k with
    | none => rfl
    | some q =>
      obtain ⟨j, t, hj, huses⟩ := hkept.queues k q hk
      rw [hq.uses_eq_false hj] at huses
      cases huses

/-! ### Work that is finished -/

/-- A send and the cancellation of its task, each to its end. -/
def tidying : List (Label Thread Move) :=
  registering ++
    [.run 1 .abort,
      .run 4 (.emit (.task ⟨"t1", "c1", ⟨.canceled, none, none⟩, [], [], none⟩)),
      .run 4 .succeed] ++
    List.replicate 7 (.run 0 (.tick ⟨"12:02", "u5", "u6", "v1"⟩)) ++
    List.replicate 5 (.run 3 (.tick ⟨"12:02", "u5", "u6", "v1"⟩))

def tidyConfig : ServerConfig := (server.exec ⟨.new, []⟩ tidying).getD ⟨.new, []⟩

theorem quiescent_tidyConfig : Quiescent tidyConfig := by
  constructor
  · intro j r hj
    rcases j with _ | _ | _ | _ | _ | j <;> cases hj
    all_goals exact Or.inl ⟨_, rfl⟩
  · intro j x hj
    rcases j with _ | _ | _ | _ | _ | j <;> cases hj
    all_goals rfl

theorem tidying_leavesNothing : server.Along LeavesNothing ⟨.new, []⟩ tidying := by
  refine ⟨?_, ?_, ?_, ?_, ?_, ?_, ?_, ?_, ?_, ?_, ?_, ?_, ?_, ?_, ?_, ?_, ?_, ?_, ?_, ?_, ?_, ?_,
    ?_, ?_, ?_, ?_, ?_, ?_, ?_, ?_, trivial⟩
  all_goals
    refine ⟨?_, ?_, ?_, ?_, ?_, ?_⟩
    · intro i r q k hl
      cases hl
    · intro i tick r removes col resp k hl hr hpc hk hne
      cases hl
      all_goals cases hr
      all_goals cases hpc
      all_goals exact absurd (Option.some.inj (QueueManager.key_of_getQueue hk)).symm hne
    · intro i m x k hl hx hfin hk
      cases hl
      all_goals cases hx
      all_goals cases hfin
      all_goals exact ⟨0, _, by decide, rfl, rfl⟩
    · intro i m x k hl hx hfin hj
      cases hl
      all_goals cases hx
      all_goals cases hfin
      all_goals
        change (∅ : Finmap fun _ : String => ℕ).lookup k = _ at hj
        rw [Finmap.lookup_empty] at hj
        cases hj
    · intro i tick g hl hg
      cases hl
      all_goals cases hg
      all_goals exact Or.inl ⟨_, rfl, rfl⟩
    · intro i k j hl
      cases hl

theorem empty_of_quiescent_tidying : KeepsNothing tidyConfig.shared :=
  empty_of_quiescent initial_new (.of_along tidying_leavesNothing rfl) quiescent_tidyConfig

/-- A blocking send whose execution is registered and completes the task, to its
end. -/
def leaving : List (Label Thread Move) :=
  blockingSpawn ++
    [.run 2 (.tick ⟨"12:00", "u1", "u2", "v1"⟩), .run 1 (.emit completedEvent), .run 1 .succeed] ++
    List.replicate 5 (.run 0 (.tick ⟨"12:02", "u5", "u6", "v1"⟩))

def leftConfig : ServerConfig := (server.exec ⟨.new, []⟩ leaving).getD ⟨.new, []⟩

/-- A stream whose execution completes the task, to its end. -/
def streamLeaving : List (Label Thread Move) :=
  streamed ++ [.run 2 (.tick noon), .run 1 .succeed, .run 0 .drop]

def streamLeftConfig : ServerConfig :=
  (server.exec ⟨.new, []⟩ streamLeaving).getD ⟨.new, []⟩

/-- The send leaves the handle of its execution, the stream that and its queue. -/
theorem leftConfig_not_keepsNothing :
    Initial ⟨.new, []⟩ ∧ server.Reach Machine.Always ⟨.new, []⟩ leftConfig ∧
      Quiescent leftConfig ∧ leftConfig.shared.runningTasks.lookup "t1" = some 1 ∧
      ¬ KeepsNothing leftConfig.shared ∧
      server.Reach Machine.Always ⟨.new, []⟩ streamLeftConfig ∧ Quiescent streamLeftConfig ∧
      streamLeftConfig.shared.runningTasks.lookup "t1" = some 1 ∧
      streamLeftConfig.shared.queueManager.getQueue "t1" = some 0 := by
  have hsend : server.Reach Machine.Always ⟨.new, []⟩ leftConfig :=
    .of_exec (show server.exec ⟨.new, []⟩ leaving = some leftConfig from rfl)
  have hstream : server.Reach Machine.Always ⟨.new, []⟩ streamLeftConfig :=
    .of_exec (show server.exec ⟨.new, []⟩ streamLeaving = some streamLeftConfig from rfl)
  have hleft : leftConfig.shared.runningTasks.lookup "t1" = some 1 := rfl
  have hkeeps : ¬ KeepsNothing leftConfig.shared := by
    rintro ⟨hempty, -⟩
    rw [hempty, Finmap.lookup_empty] at hleft
    cases hleft
  refine ⟨initial_new, hsend, ⟨?_, ?_⟩, hleft, hkeeps, hstream, ⟨?_, ?_⟩, rfl, rfl⟩
  · intro j r hj
    rcases j with _ | _ | _ | j <;> cases hj
    exact Or.inl ⟨_, rfl⟩
  · intro j x hj
    rcases j with _ | _ | _ | j <;> cases hj
    rfl
  · intro j r hj
    rcases j with _ | _ | _ | j <;> cases hj
    exact Or.inr rfl
  · intro j x hj
    rcases j with _ | _ | _ | j <;> cases hj
    rfl

end Ra2a
