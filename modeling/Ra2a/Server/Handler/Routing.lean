import Ra2a.Server.Handler.Frames

/-!
# Where a running execution can be heard

A client that subscribes to a task finds its queue through the queue manager.
So an execution can be heard only as long as the manager maps its task to the
queue it writes to.  The queue is removed by whichever send or cancel returns
first, also when an execution of the task is still running, and then nobody new
can hear it.

The mapping holds along every run in which a queue is removed only when the task
has no unfinished execution and no request that is about to spawn one, and in
which interceptors leave the task id alone (`routed_reach`).
-/

namespace Ra2a

open Broadcast Interleave

/-! ### The condition -/

/-- A step of request `i` at `pc` that respects the queues: one that removes the
queue of a task finds no unfinished execution of the task and no request that
has got the queue and not spawned yet, and an interceptor returns the task id it
was given. -/
def Keeps (c : ServerConfig) : Pc → Prop
  | .returning removes _ _ =>
    (∀ (j : ℕ) (x : Execution), c.threads[j]? = some (.execution x) → x.ctx.taskId = removes →
        x.pc.isFinished = true) ∧
      ∀ (j : ℕ) (r : Request) key ctx q, c.threads[j]? = some (.request r) →
        r.pc = .queued key ctx q → key ≠ removes
  | .intercepting _ ctx n =>
    ∀ interceptor ctx', c.shared.reqContextInterceptors[n]? = some interceptor →
      interceptor c.shared.taskStore ctx = .ok ctx' → ctx'.taskId = ctx.taskId
  | _ => True

/-- A step that respects the queues. -/
def KeepsQueues (c : ServerConfig) : Label Thread Move → Prop
  | .run i (.tick _) => ∀ r, c.threads[i]? = some (.request r) → Keeps c r.pc
  | _ => True

/-! ### The invariant -/

/-- A request knows its task by the id its queue is mapped under, and an
execution that has not finished writes to the queue its task is mapped to. -/
def RoutedThread (c : ServerConfig) (_ : ℕ) : Thread → Prop
  | .request r =>
    match r.pc with
    | .intercepting key ctx _ => ctx.taskId = key
    | .queueing key ctx => ctx.taskId = key
    | .queued key ctx q => ctx.taskId = key ∧ c.shared.queueManager.getQueue key = some q
    | .canceling task => ∀ params, r.call = .cancelTask params → task.id = params.id
    | _ => True
  | .execution x =>
    x.pc.isFinished = false → c.shared.queueManager.getQueue x.ctx.taskId = some x.queue
  | .registration _ => True

section

variable {c : ServerConfig} {h' : DefaultRequestHandler} {new : List Thread} {i : ℕ} {m : Move}
  {t t' : Thread}

/-- A mapping is lost only when a request removes it. -/
theorem getQueue_step (ha : server.advance c.shared c.threads i m t = some (h', t', new))
    {k : TaskId} {q : ℕ} (hk : c.shared.queueManager.getQueue k = some q) :
    h'.queueManager.getQueue k = some q ∨
      ∃ r col resp tick, t = .request r ∧ r.pc = .returning k col resp ∧ m = .tick tick := by
  rcases cases_of_step ha with ⟨r, r', rfl, rfl, hs, hm⟩ | ⟨x, x', rfl, rfl, rfl, hs⟩ |
    ⟨g, rfl, -, rfl, rfl, rfl⟩
  · rcases hs.queueManager with he | ⟨key, ctx, p, -, -, hq⟩ | ⟨removes, col, resp, hpc, he⟩
    · exact Or.inl (by rw [he, hk])
    · exact Or.inl ((QueueManager.getQueue_of_getOrCreateQueue hq).2 k q hk)
    · by_cases hkr : k = removes
      · subst hkr
        rcases hm with ⟨tick, rfl⟩ | ⟨rfl, rfl⟩
        · exact Or.inr ⟨r, col, resp, tick, rfl, hpc, rfl⟩
        · -- a client that gives up removes nothing
          exact Or.inl hk
      · exact Or.inl (by rw [he, QueueManager.getQueue_removeQueue, if_neg hkr, hk])
  · refine Or.inl ?_
    rw [hs.queueManager]
    split
    · rw [QueueManager.getQueue_send, hk]
    · exact hk
  · exact Or.inl hk

/-- A step that respects the queues keeps the mapping of every unfinished
execution. -/
theorem getQueue_execution (hok : KeepsQueues c (.run i m)) (ht : c.threads[i]? = some t)
    (ha : server.advance c.shared c.threads i m t = some (h', t', new)) {j : ℕ} {x : Execution}
    (hx : c.threads[j]? = some (.execution x)) (hopen : x.pc.isFinished = false)
    (hq : c.shared.queueManager.getQueue x.ctx.taskId = some x.queue) :
    h'.queueManager.getQueue x.ctx.taskId = some x.queue := by
  rcases getQueue_step ha hq with hkept | ⟨r, col, resp, tick, rfl, hpc, rfl⟩
  · exact hkept
  · have hkeeps := hok r ht
    rw [hpc] at hkeeps
    have hfin := hkeeps.1 j x hx rfl
    rw [hopen] at hfin
    cases hfin

/-- A request after its own step. -/
theorem routed_request {r r' : Request} (hA : RoutedThread c i (.request r))
    (hok : r' = r.goto .dropped ∨ Keeps c r.pc) (hs : r.Step c.shared c.threads i h' r' new) :
    RoutedThread ⟨h', c.threads.set i (.request r') ++ new⟩ i (.request r') := by
  cases hs with
  | configure params ctx tick hpc hcall => exact rfl
  | intercept key ctx ctx' n interceptor hpc hn hctx =>
    rw [RoutedThread, hpc] at hA
    rcases hok with hd | hk
    · exact absurd (congrArg Request.pc hd) (by simp)
    · rw [hpc] at hk
      exact (hk interceptor ctx' hn hctx).trans hA
  | intercepted key ctx n hpc hn =>
    rw [RoutedThread, hpc] at hA
    exact hA
  | accept params task hpc hcall htask hopen =>
    intro p hp
    rw [Request.goto_call, hcall] at hp
    cases hp
    exact DefaultRequestHandler.id_of_getTaskInternal htask
  | abort params task hpc hcall =>
    rw [RoutedThread, hpc] at hA
    exact hA params hcall
  | queue key ctx q m hpc hq =>
    rw [RoutedThread, hpc] at hA
    exact ⟨hA, (QueueManager.getQueue_of_getOrCreateQueue hq).1⟩
  | _ => exact trivial

/-- What a request spawns. -/
theorem routed_new {r r' : Request} (hA : RoutedThread c i (.request r))
    (hs : r.Step c.shared c.threads i h' r' new) {u : Thread} (hu : u ∈ new) {j : ℕ} :
    RoutedThread ⟨h', c.threads.set i (.request r') ++ new⟩ j u := by
  rcases hs.spawned hu with ⟨x, rfl, -, hpc⟩ | ⟨g, rfl⟩
  · intro _
    rw [RoutedThread, hpc] at hA
    rcases hs.queueManager with he | ⟨key, ctx, p, hpc', -⟩ | ⟨removes, col, resp, hpc', -⟩
    · change h'.queueManager.getQueue x.ctx.taskId = some x.queue
      rw [he, hA.1, hA.2]
    · rw [hpc] at hpc'
      cases hpc'
    · rw [hpc] at hpc'
      cases hpc'
  · exact trivial

/-- A thread after the step of another. -/
theorem routed_other (hok : KeepsQueues c (.run i m)) (ht : c.threads[i]? = some t)
    (ha : server.advance c.shared c.threads i m t = some (h', t', new)) {j : ℕ} {u : Thread}
    (hu : c.threads[j]? = some u) (hA : RoutedThread c j u) :
    RoutedThread ⟨h', c.threads.set i t' ++ new⟩ j u := by
  cases u with
  | registration g => exact trivial
  | execution x => exact fun hopen => getQueue_execution hok ht ha hu hopen (hA hopen)
  | request r =>
    cases hpc : r.pc with
    | queued key ctx q =>
      rw [RoutedThread, hpc] at hA ⊢
      refine ⟨hA.1, ?_⟩
      rcases getQueue_step ha hA.2 with hkept | ⟨r', col, resp, tick, rfl, hpc', rfl⟩
      · exact hkept
      · have hkeeps := hok r' ht
        rw [hpc'] at hkeeps
        exact absurd rfl (hkeeps.2 j r key ctx q hu hpc)
    | _ => rw [RoutedThread, hpc] at hA ⊢; exact hA

end

/-- **The invariant holds along every run that respects the queues.** -/
theorem routedThread_reach {c₀ c : ServerConfig} (h₀ : Initial c₀)
    (h : server.Reach KeepsQueues c₀ c) : Machine.Reach.Each RoutedThread c := by
  refine h.threads ?_ ?_ ?_ ?_ ?_
  · exact h₀.each
  · intro c t hA hok hf j u hu
    rcases Places.getElem?_concat_cases hu with hu | ⟨-, rfl⟩
    · exact hA j u hu
    · obtain ⟨r, rfl, hpc, -⟩ := Thread.of_isFresh hf
      simp only [RoutedThread, hpc]
  · intro c i m t s' t' new hA hok ht ha
    rcases cases_of_step ha with ⟨r, r', rfl, rfl, hs, hm⟩ | ⟨x, x', rfl, rfl, rfl, hs⟩ |
      ⟨g, rfl, -, rfl, rfl, rfl⟩
    · refine routed_request (hA i _ ht) ?_ hs
      rcases hm with ⟨tick, rfl⟩ | ⟨-, rfl⟩
      · exact Or.inr (hok r ht)
      · exact Or.inl rfl
    · intro _
      rw [hs.same.ctx, hs.same.queue]
      exact getQueue_execution hok ht ha ht hs.unfinished (hA i _ ht hs.unfinished)
    · exact trivial
  · intro c i m t s' t' new j u hA hok ht ha hlen hu
    rcases cases_of_step ha with ⟨r, r', rfl, rfl, hs, hm⟩ | ⟨x, x', rfl, rfl, rfl, hs⟩ |
      ⟨g, rfl, -, rfl, rfl, rfl⟩
    · exact routed_new (hA i _ ht) hs (List.mem_of_getElem? hu)
    · simp at hu
    · simp at hu
  · intro c i m t s' t' new j u hA hok ht ha hij hu
    exact routed_other hok ht ha hu (hA j u hu)

/-! ### What a subscriber hears -/

/-- A stream that reads queue `q` from position `pos` has before it whatever
execution `j` sends from `c` on. -/
def Hears (c : ServerConfig) (j q pos : ℕ) : Prop :=
  ∀ c' c'' m (x : Execution) e, server.Reach Machine.Always c c' →
    c'.threads[j]? = some (.execution x) → x.sends m = some e →
    server.step c' (.run j m) = some c'' → ⟨j, e⟩ ∈ (c''.shared.queueManager.log q).drop pos

theorem hears_of_key {c : ServerConfig} {j pos : ℕ} {x : Execution} {k : String}
    (hx : c.threads[j]? = some (.execution x)) (hk : c.shared.queueManager.key x.queue = some k)
    (hpos : pos ≤ (c.shared.queueManager.log x.queue).length) : Hears c j x.queue pos := by
  intro c' c'' m y e hreach hy hsend hstep
  have hext := extends_reach hreach
  obtain ⟨x', hx', hsame⟩ := hext.execution j x hx
  obtain rfl : x' = y := by
    rw [hx'] at hy
    cases hy
    rfl
  have hlt := QueueManager.lt_of_key (hext.key x.queue k hk)
  have hlen := hext.length_le x.queue
  rcases Machine.step_cases hstep with ⟨t, he, -⟩ | ⟨i, m', t, s', t', new, he, ht, ha, rfl⟩
  · cases he
  · cases he
    rw [ht] at hx'
    cases hx'
    rcases cases_of_step ha with ⟨r, r', he, -⟩ | ⟨z, z', he, rfl, rfl, hs⟩ | ⟨g, he, -⟩
    · cases he
    · cases he
      have hq := hs.queueManager
      rw [hsend] at hq
      change _ ∈ (s'.queueManager.log x.queue).drop pos
      rw [hq, hsame.queue, QueueManager.log_send _ _ hlt, if_pos rfl,
        List.drop_append_of_le_length (by omega)]
      exact List.mem_append_right _ (List.mem_singleton_self _)
    · cases he

/-- Every execution that has not finished writes to the queue the manager maps
its task to, and whoever subscribes to the task, if it is open, hears it. -/
def Routed (c : ServerConfig) : Prop :=
  ∀ (j : ℕ) (x : Execution), c.threads[j]? = some (.execution x) → x.pc.isFinished = false →
    c.shared.queueManager.getQueue x.ctx.taskId = some x.queue ∧
      ∀ (params : SubscribeToTaskRequest) t, params.id = x.ctx.taskId →
        c.shared.getTaskInternal params.id = some t → t.isTerminal = false →
        ∃ pos, c.shared.onSubscribeToTask params = .ok (x.queue, pos) ∧ Hears c j x.queue pos

/-- **Running executions can be heard, along every run that respects the
queues.** -/
theorem routed_reach {c₀ c : ServerConfig} (h₀ : Initial c₀)
    (h : server.Reach KeepsQueues c₀ c) : Routed c := by
  intro j x hx hopen
  have hq : c.shared.queueManager.getQueue x.ctx.taskId = some x.queue :=
    routedThread_reach h₀ h j _ hx hopen
  refine ⟨hq, fun params t hid ht hterm => ?_⟩
  refine ⟨(c.shared.queueManager.log x.queue).length, ?_,
    hears_of_key hx (QueueManager.key_of_getQueue hq) le_rfl⟩
  rw [DefaultRequestHandler.onSubscribeToTask, ht]
  simp only [hterm, Bool.false_eq_true, if_false, hid, hq]

/-! ### A send that returns early -/

/-- A non-blocking send arrives, gets a queue and spawns an execution. -/
def earlySpawn : List (Label Thread Move) :=
  .arrive (sendTo "m1" true) :: List.replicate 5 (.run 0 (.tick ⟨"12:00", "u1", "u2", "v1"⟩))

/-- The execution sends the task in work, and the send returns it. -/
def earlyReturn : List (Label Thread Move) :=
  .run 1 (.emit (.task ⟨"t1", "c1", ⟨.working, none, none⟩, [], [], none⟩)) ::
    List.replicate 5 (.run 0 (.tick ⟨"12:01", "u1", "u2", "v1"⟩))

/-- The execution is still running, and its task has no queue. -/
theorem earlyReturn_not_routed :
    ∃ c, Initial ⟨.new, []⟩ ∧ server.Reach Machine.Always ⟨.new, []⟩ c ∧ ¬ Routed c := by
  have hview : (server.exec ⟨.new, []⟩ (earlySpawn ++ earlyReturn)).map (fun c =>
      ((executionAt c 1).map fun x => (x.pc.isFinished, x.ctx.taskId),
        c.shared.queueManager.getQueue "t1")) = some (some (false, "t1"), none) := by decide
  obtain ⟨c, he, hc⟩ := Option.map_eq_some_iff.mp hview
  refine ⟨c, initial_new, .of_exec he, fun hrouted => ?_⟩
  obtain ⟨hx, hq⟩ := Prod.mk.inj hc
  obtain ⟨x, hx, hopen⟩ := Option.map_eq_some_iff.mp hx
  obtain ⟨hopen, hid⟩ := Prod.mk.inj hopen
  have hr := (hrouted 1 x (executionAt_eq_some hx) hopen).1
  rw [hid, hq] at hr
  cases hr

/-- The execution returns before its send does, and a second send spawns another. -/
def lateReturn : List (Label Thread Move) :=
  earlySpawn ++ [.run 1 (.emit (.task ⟨"t1", "c1", ⟨.working, none, none⟩, [], [], none⟩)),
    .run 1 .succeed] ++ List.replicate 5 (.run 0 (.tick ⟨"12:01", "u1", "u2", "v1"⟩)) ++
    .arrive (sendTo "m2" false) :: List.replicate 5 (.run 3 (.tick ⟨"12:02", "u3", "u4", "v2"⟩))

/-- The first queue is removed, the task is stored, and the second execution runs. -/
def secondConfig : ServerConfig := (server.exec ⟨.new, []⟩ lateReturn).getD ⟨.new, []⟩

theorem lateReturn_keepsQueues : server.Along KeepsQueues ⟨.new, []⟩ lateReturn := by
  refine ⟨trivial, ?_, ?_, ?_, ?_, ?_, trivial, trivial, ?_, ?_, ?_, ?_, ?_, trivial, ?_, ?_, ?_,
    ?_, ?_, trivial⟩
  all_goals
    intro r hr
    cases hr
    first | exact trivial | (intro _ _ hn; cases hn) | skip
  · -- the queue is removed when the only execution of the task has returned
    refine ⟨fun j x hj _ => ?_, fun j r key ctx q hj hpc => ?_⟩
    · rcases j with _ | _ | _ | j <;> cases hj
      rfl
    · rcases j with _ | _ | _ | j <;> cases hj
      cases hpc

theorem routed_reach_lateReturn :
    Routed secondConfig ∧ secondConfig.shared.queueManager.getQueue "t1" = some 1 ∧
      ∃ t, secondConfig.shared.getTaskInternal "t1" = some t ∧ t.isTerminal = false :=
  ⟨routed_reach initial_new (.of_along lateReturn_keepsQueues rfl), rfl, _, rfl, rfl⟩

end Ra2a
