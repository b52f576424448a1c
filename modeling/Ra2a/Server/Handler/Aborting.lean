import Ra2a.Server.Handler.Waiting

/-!
# Which executions a cancellation aborts

`on_cancel_task` takes one handle out of the running tasks, the one under the
id it was asked to cancel, and aborts that.  A handle gets there by a task of
its own, some time after the execution was spawned, and the one of a later send
takes the place of the one before.  So the executor's `cancel` starts after all
earlier executions of the task have ended or were aborted (`AbortsEarlier`) as
long as the handle found is that of the only one that has not (`KeepsHandle`).
Where it is not, nothing is left to keep the cancellation from starting
(`starts_unaborted`).
-/

namespace Ra2a

open Broadcast Interleave

/-! ### What is to be stopped -/

/-- Execution `x`, which is thread `j`, has finished or was told to abort. -/
def Execution.Stopped (h : DefaultRequestHandler) (j : ℕ) (x : Execution) : Prop :=
  x.pc.isFinished = true ∨ j ∈ h.aborts

/-- Every execution for task `k` that was spawned before thread `i` came has
finished or was told to abort. -/
def EarlierStopped (c : ServerConfig) (k : TaskId) (i : ℕ) : Prop :=
  ∀ (j : ℕ) (x : Execution), j < i → c.threads[j]? = some (.execution x) → x.job = .execute →
    x.ctx.taskId = k → x.Stopped c.shared j

/-- Wherever `executor.cancel` was started, the executions of the task that were
there before the request to cancel it had been stopped. -/
def AbortsEarlier (c : ServerConfig) : Prop :=
  ∀ (j : ℕ) (y : Execution) (k : TaskId), c.threads[j]? = some (.execution y) →
    y.job = .cancel k → EarlierStopped c k y.owner

/-- A request that takes the handle of the task it cancels finds the one of
every earlier execution of the task that is not stopped yet. -/
def KeepsHandle (c : ServerConfig) : Label Thread Move → Prop
  | .run i (.tick _) => ∀ (r : Request) (task : Task) (params : CancelTaskRequest),
      c.threads[i]? = some (.request r) → r.pc = .canceling task → r.call = .cancelTask params →
      ∀ (j : ℕ) (x : Execution), j < i → c.threads[j]? = some (.execution x) →
        x.job = .execute → x.ctx.taskId = params.id →
        x.Stopped c.shared j ∨ c.shared.runningTasks.lookup params.id = some j
  | _ => True

/-! ### Steps -/

section

variable {h h' : DefaultRequestHandler} {threads new : List Thread} {i : ℕ}

/-- The handle under the id is told to abort. -/
theorem DefaultRequestHandler.mem_aborts_abortRunning {k : TaskId} {j : ℕ} :
    j ∈ (h.abortRunning k).aborts ↔ h.runningTasks.lookup k = some j ∨ j ∈ h.aborts := by
  unfold abortRunning
  cases hl : h.runningTasks.lookup k with
  | none => simp
  | some handle => simp [eq_comm]

@[simp] theorem DefaultRequestHandler.aborts_storeTask (t : Task) :
    (h.storeTask t).aborts = h.aborts := rfl

@[simp] theorem DefaultRequestHandler.aborts_saveInlinePushConfig (p : SendMessageRequest)
    (k : TaskId) (tick : Tick) : (h.saveInlinePushConfig p k tick).aborts = h.aborts := by
  obtain ⟨_, he⟩ := h.saveInlinePushConfig_eq p k tick
  rw [he]

/-- A thread that was told to abort stays told. -/
theorem aborts_step {m : Move} {t t' : Thread} {j : ℕ}
    (ha : server.advance h threads i m t = some (h', t', new)) (hj : j ∈ h.aborts) :
    j ∈ h'.aborts := by
  rcases cases_of_step ha with ⟨r, r', rfl, rfl, hs, -⟩ | ⟨x, x', rfl, rfl, rfl, hs⟩ |
    ⟨g, rfl, -, rfl, rfl, rfl⟩
  · cases hs with
    | abort => exact DefaultRequestHandler.mem_aborts_abortRunning.mpr (Or.inr hj)
    | configure | persist | update => simpa using hj
    | _ => exact hj
  · cases hs with
    | save => simpa using hj
    | _ => exact hj
  · exact hj

/-- The execution a request starts is its own, and a cancellation only when the
request is one that has its queue. -/
theorem Request.Step.starts {r r' : Request} (hs : r.Step h threads i h' r' new)
    {y : Execution} (hy : Thread.execution y ∈ new) :
    y.owner = i ∧ ∀ k, y.job = .cancel k → ∃ params key ctx q, r.call = .cancelTask params ∧
      params.id = k ∧ r.pc = .queued key ctx q := by
  cases hs with
  | spawnSend params key ctx q pos hpc | spawnStream params key ctx q hpc =>
    rcases List.mem_pair.mp hy with he | he
    · cases he
      exact ⟨rfl, fun k hk => by cases hk⟩
    · cases he
  | spawnCancel params key ctx q pos hpc hcall =>
    cases List.mem_singleton.mp hy
    refine ⟨rfl, fun k hk => ?_⟩
    cases hk
    exact ⟨params, key, ctx, q, hcall, rfl, hpc⟩
  | _ => cases hy

/-- What is stopped stays stopped, and what is spawned later does not count. -/
theorem EarlierStopped.step {c : ServerConfig} {m : Move} {t t' : Thread} {k : TaskId} {n : ℕ}
    (ht : c.threads[i]? = some t)
    (ha : server.advance c.shared c.threads i m t = some (h', t', new))
    (hn : n ≤ c.threads.length) (hstop : EarlierStopped c k n) :
    EarlierStopped ⟨h', c.threads.set i t' ++ new⟩ k n := by
  intro j x hj hx hjob htask
  rcases Machine.getElem?_moved hx with ⟨rfl, rfl⟩ | ⟨-, hx⟩ | ⟨hlen, -⟩
  · rcases cases_of_step ha with ⟨r, r', -, he, -⟩ | ⟨x₀, x', rfl, he, rfl, hs⟩ | ⟨g, -, -, he, -⟩
    · cases he
    · cases he
      have hsame := hs.same
      rcases hstop j x₀ hj ht (hsame.job ▸ hjob) (hsame.ctx ▸ htask) with hfin | hmem
      · rw [hs.unfinished] at hfin
        cases hfin
      · exact Or.inr (aborts_step ha hmem)
    · cases he
  · rcases hstop j x hj hx hjob htask with hfin | hmem
    · exact Or.inl hfin
    · exact Or.inr (aborts_step ha hmem)
  · omega

theorem EarlierStopped.arrive {c : ServerConfig} {k : TaskId} {n : ℕ} (t : Thread)
    (hn : n ≤ c.threads.length) (hstop : EarlierStopped c k n) :
    EarlierStopped ⟨c.shared, c.threads ++ [t]⟩ k n := by
  intro j x hj hx hjob htask
  rw [List.getElem?_append_left (by omega)] at hx
  exact hstop j x hj hx hjob htask

/-- The step that aborts the handle stops what is left to stop. -/
theorem earlierStopped_abort {c : ServerConfig} {r r' : Request} {params : CancelTaskRequest}
    {k : TaskId} (ht : c.threads[i]? = some (.request r))
    (hhandle : ∀ (j : ℕ) (x : Execution), j < i → c.threads[j]? = some (.execution x) →
      x.job = .execute → x.ctx.taskId = params.id →
      x.Stopped c.shared j ∨ c.shared.runningTasks.lookup params.id = some j)
    (hk : params.id = k) :
    EarlierStopped ⟨c.shared.abortRunning params.id, c.threads.set i (.request r') ++ []⟩ k i := by
  intro j x hj hx hjob htask
  rcases Machine.getElem?_moved hx with ⟨rfl, -⟩ | ⟨-, hx⟩ | ⟨-, hx⟩
  · omega
  · rcases hhandle j x hj hx hjob (htask.trans hk.symm) with (hfin | hmem) | hentry
    · exact Or.inl hfin
    · exact Or.inr (DefaultRequestHandler.mem_aborts_abortRunning.mpr (Or.inr hmem))
    · exact Or.inr (DefaultRequestHandler.mem_aborts_abortRunning.mpr (Or.inl hentry))
  · cases hx

end

/-! ### Runs -/

/-- The request has taken the handle, and has not started the cancellation yet. -/
def Request.hasAborted (r : Request) : Bool :=
  match r.pc with
  | .queueing _ _ => true
  | .queued _ _ _ => true
  | _ => false

/-- What a thread knows of the executions that were there before: a request
between the abort and the start of the cancellation, and a cancellation. -/
def AbortingThread (c : ServerConfig) (i : ℕ) : Thread → Prop
  | .request r => ∀ params, r.call = .cancelTask params →
      (∀ key ctx n, r.pc ≠ .intercepting key ctx n) ∧
      (r.hasAborted = true → EarlierStopped c params.id i)
  | .execution y => y.owner < c.threads.length ∧
      ∀ k, y.job = .cancel k → EarlierStopped c k y.owner
  | .registration _ => True

/-- A cancellation goes through no interceptors. -/
theorem Request.Step.intercepting {h h' : DefaultRequestHandler} {threads new : List Thread}
    {i : ℕ} {r r' : Request} {params : CancelTaskRequest} (hs : r.Step h threads i h' r' new)
    (hcall : r.call = .cancelTask params) (hpc : ∀ key ctx n, r.pc ≠ .intercepting key ctx n) :
    ∀ key ctx n, r'.pc ≠ .intercepting key ctx n := by
  intro key ctx n he
  cases hs with
  | configure p _ _ _ hp =>
    rw [hcall] at hp
    rcases hp with hp | hp <;> cases hp
  | intercept key₀ ctx₀ _ n₀ _ hpc₀ => exact hpc _ _ _ hpc₀
  | _ => cases he

/-- A request that waits for its queue or has it did so before, or it has just
aborted the handle. -/
theorem Request.Step.hasAborted {h h' : DefaultRequestHandler} {threads new : List Thread} {i : ℕ}
    {r r' : Request} {params : CancelTaskRequest} (hs : r.Step h threads i h' r' new)
    (hcall : r.call = .cancelTask params) (hpc : ∀ key ctx n, r.pc ≠ .intercepting key ctx n)
    (hab : r'.hasAborted = true) :
    r.hasAborted = true ∨
      ((∃ task, r.pc = .canceling task) ∧ h' = h.abortRunning params.id ∧ new = []) := by
  cases hs with
  | intercepted key ctx n hpc₀ => exact absurd hpc₀ (hpc key ctx n)
  | abort p task hpc₀ hp =>
    rw [hcall] at hp
    cases hp
    exact Or.inr ⟨⟨task, hpc₀⟩, rfl, rfl⟩
  | queue key ctx q m hpc₀ => exact Or.inl (by rw [Request.hasAborted, hpc₀])
  | _ => cases hab

section Step

variable {c : ServerConfig} {i j : ℕ} {m : Move} {t t' u : Thread} {s' : DefaultRequestHandler}
  {new : List Thread}

/-- A thread that arrives has not started anything, and the others know what they did. -/
theorem aborting_arrive (hA : Machine.Reach.Each AbortingThread c) (hf : t.isFresh = true) :
    Machine.Reach.Each AbortingThread ⟨c.shared, c.threads ++ [t]⟩ := by
  intro j u hu
  have hj : j ≤ c.threads.length := by
    have := (List.getElem?_eq_some_iff.mp hu).1
    rw [List.length_append, List.length_singleton] at this
    omega
  rcases Places.getElem?_concat_cases hu with hu | ⟨-, rfl⟩
  · cases u with
    | request r =>
      intro params hcall
      exact ⟨(hA j _ hu params hcall).1, fun hab => ((hA j _ hu params hcall).2 hab).arrive t hj⟩
    | execution y =>
      obtain ⟨howner, hstop⟩ := hA j _ hu
      refine ⟨?_, fun k hk => (hstop k hk).arrive t howner.le⟩
      change _ < (c.threads ++ [t]).length
      rw [List.length_append]
      omega
    | registration g => exact trivial
  · obtain ⟨r, rfl, hpc, -⟩ := Thread.of_isFresh hf
    intro params hcall
    refine ⟨fun key ctx n he => ?_, fun hab => ?_⟩
    · rw [hpc] at he
      cases he
    · rw [Request.hasAborted, hpc] at hab
      cases hab

/-- A request that moves has aborted the handle now, or before. -/
theorem aborting_move (hA : Machine.Reach.Each AbortingThread c) (hok : KeepsHandle c (.run i m))
    (ht : c.threads[i]? = some t)
    (ha : server.advance c.shared c.threads i m t = some (s', t', new)) :
    AbortingThread ⟨s', c.threads.set i t' ++ new⟩ i t' := by
  have hi : i < c.threads.length := (List.getElem?_eq_some_iff.mp ht).1
  rcases cases_of_step ha with ⟨r, r', rfl, rfl, hs, hm⟩ | ⟨x, x', rfl, rfl, rfl, hs⟩ |
    ⟨g, rfl, -, rfl, rfl, rfl⟩
  · intro params hcall
    rw [hs.call] at hcall
    obtain ⟨hpc, hstop⟩ := hA i _ ht params hcall
    refine ⟨hs.intercepting hcall hpc, fun hab => ?_⟩
    rcases hs.hasAborted hcall hpc hab with hold | ⟨⟨task, hcan⟩, rfl, rfl⟩
    · exact (hstop hold).step ht ha hi.le
    · rcases hm with ⟨tick, rfl⟩ | ⟨-, rfl⟩
      · exact earlierStopped_abort ht (hok r task params ht hcan hcall) rfl
      · cases hab
  · obtain ⟨howner, hstop⟩ := hA i _ ht
    have hsame := hs.same
    constructor
    · change x'.owner < (c.threads.set i _ ++ []).length
      rw [hsame.owner, List.append_nil, List.length_set]
      exact howner
    · intro k hk
      rw [hsame.owner]
      exact (hstop k (hsame.job ▸ hk)).step ht ha howner.le
  · exact trivial

/-- A cancellation is started by a request that has aborted the handle. -/
theorem aborting_new (hA : Machine.Reach.Each AbortingThread c) (ht : c.threads[i]? = some t)
    (ha : server.advance c.shared c.threads i m t = some (s', t', new)) (hmem : u ∈ new) :
    AbortingThread ⟨s', c.threads.set i t' ++ new⟩ j u := by
  have hi : i < c.threads.length := (List.getElem?_eq_some_iff.mp ht).1
  cases u with
  | request r => exact absurd hmem (not_request_new ha)
  | registration g => exact trivial
  | execution y =>
    rcases cases_of_step ha with ⟨r, r', rfl, rfl, hs, -⟩ | ⟨x, x', rfl, rfl, rfl, hs⟩ |
      ⟨g, rfl, -, rfl, rfl, rfl⟩
    · obtain ⟨howner, hcancel⟩ := hs.starts hmem
      refine ⟨?_, fun k hk => ?_⟩
      · change y.owner < (c.threads.set i _ ++ new).length
        rw [howner, List.length_append, List.length_set]
        omega
      · obtain ⟨params, key, ctx, q, hcall, rfl, hpc⟩ := hcancel k hk
        rw [howner]
        refine ((hA i _ ht params hcall).2 ?_).step ht ha hi.le
        rw [Request.hasAborted, hpc]
    · cases hmem
    · cases hmem

/-- What a thread knows stays so while another one moves. -/
theorem aborting_stable (hA : Machine.Reach.Each AbortingThread c) (ht : c.threads[i]? = some t)
    (ha : server.advance c.shared c.threads i m t = some (s', t', new))
    (hu : c.threads[j]? = some u) : AbortingThread ⟨s', c.threads.set i t' ++ new⟩ j u := by
  have hj : j < c.threads.length := (List.getElem?_eq_some_iff.mp hu).1
  cases u with
  | request r =>
    intro params hcall
    obtain ⟨hpc, hstop⟩ := hA j _ hu params hcall
    exact ⟨hpc, fun hab => (hstop hab).step ht ha hj.le⟩
  | execution y =>
    obtain ⟨howner, hstop⟩ := hA j _ hu
    refine ⟨?_, fun k hk => (hstop k hk).step ht ha howner.le⟩
    change y.owner < (c.threads.set i t' ++ new).length
    rw [List.length_append, List.length_set]
    omega
  | registration g => exact trivial

end Step

/-- **Along a run that keeps the handles**, whoever has aborted one has stopped
all executions of the task that were there before. -/
theorem aborting_reach {c₀ c : ServerConfig} (h₀ : Initial c₀)
    (h : server.Reach KeepsHandle c₀ c) : Machine.Reach.Each AbortingThread c := by
  refine h.threads h₀.each ?_ ?_ ?_ ?_
  · intro c t hA _ hf
    exact aborting_arrive hA hf
  · intro c i m t s' t' new hA hok ht ha
    exact aborting_move hA hok ht ha
  · intro c i m t s' t' new j u hA _ ht ha _ hu
    exact aborting_new hA ht ha (List.mem_of_getElem? hu)
  · intro c i m t s' t' new j u hA _ ht ha _ hu
    exact aborting_stable hA ht ha hu

/-- **A cancellation starts after every earlier execution of the task has ended
or was told to abort**, in a run in which each cancellation finds the handle of
the one that has not. -/
theorem abortsEarlier_reach {c₀ c : ServerConfig} (h₀ : Initial c₀)
    (h : server.Reach KeepsHandle c₀ c) : AbortsEarlier c := by
  intro j y k hy hjob
  exact (aborting_reach h₀ h j _ hy).2 k hjob

/-! ### A handle that is not there -/

/-- A tick of a request is a step of the server. -/
theorem step_tick {c : ServerConfig} {i : ℕ} {r r' : Request} {h' : DefaultRequestHandler}
    {new : List Thread} {tick : Tick} (hi : c.threads[i]? = some (.request r))
    (ha : r.advance c.shared c.threads i tick = some (h', r', new)) :
    server.step c (.run i (.tick tick)) = some ⟨h', c.threads.set i (.request r') ++ new⟩ := by
  rw [Machine.step, hi]
  change Option.map _ (Option.map _ (r.advance c.shared c.threads i tick)) = _
  rw [ha]
  rfl

/-- **A cancellation that finds another handle, or none, starts all the same**:
three steps of the request, and an execution that was there before it still runs
and has not been told to stop. -/
theorem starts_unaborted {c : ServerConfig} {i j : ℕ} {r : Request} {x : Execution} {task : Task}
    {params : CancelTaskRequest} {q : ℕ} {m : QueueManager} (tick : Tick)
    (hi : c.threads[i]? = some (.request r)) (hpc : r.pc = .canceling task)
    (hcall : r.call = .cancelTask params) (hji : j < i)
    (hx : c.threads[j]? = some (.execution x)) (hjob : x.job = .execute)
    (htask : x.ctx.taskId = params.id) (hrun : ¬ x.Stopped c.shared j)
    (hother : c.shared.runningTasks.lookup params.id ≠ some j)
    (hq : c.shared.queueManager.getOrCreateQueue params.id = some (q, m)) :
    ∃ c', server.exec c (List.replicate 3 (.run i (.tick tick))) = some c' ∧
      ¬ AbortsEarlier c' := by
  let ctx := DefaultRequestHandler.cancelContext task
  let h₁ := c.shared.abortRunning params.id
  let h₂ : DefaultRequestHandler := { h₁ with queueManager := m }
  let r₁ := r.goto (.queueing params.id ctx)
  let r₂ := r.goto (.queued params.id ctx q)
  let ts₁ := c.threads.set i (.request r₁) ++ []
  let ts₂ := ts₁.set i (.request r₂) ++ []
  have hi₁ : ts₁[i]? = some (.request r₁) := Machine.getElem?_self hi
  have hi₂ : ts₂[i]? = some (.request r₂) := Machine.getElem?_self hi₁
  have hs₁ : server.step c (.run i (.tick tick)) = some ⟨h₁, ts₁⟩ := by
    apply step_tick hi
    simp only [Request.advance, hpc, hcall]
    rfl
  have hs₂ : server.step ⟨h₁, ts₁⟩ (.run i (.tick tick)) = some ⟨h₂, ts₂⟩ := by
    apply step_tick hi₁
    have hq₁ : h₁.queueManager.getOrCreateQueue params.id = some (q, m) := by
      rw [DefaultRequestHandler.queueManager_abortRunning, hq]
    simp only [Request.advance, r₁, Request.goto_pc, hq₁]
    rfl
  let pos := (m.log q).length
  let r₃ := r.goto (.collecting params.id ⟨q, pos, none, pos, ts₂.length⟩ .receiving)
  let y : Execution := ⟨.cancel params.id, ctx, params.id, q, i, .running⟩
  have hs₃ : server.step ⟨h₂, ts₂⟩ (.run i (.tick tick)) =
      some ⟨h₂, ts₂.set i (.request r₃) ++ [.execution y]⟩ := by
    apply step_tick hi₂
    simp only [Request.advance, r₂, Request.goto_pc, Request.spawn, Request.goto_call, hcall]
    rfl
  refine ⟨⟨h₂, ts₂.set i (.request r₃) ++ [.execution y]⟩, ?_, fun hall => ?_⟩
  · simp only [List.replicate_succ, List.replicate_zero, Machine.exec, hs₁, hs₂, hs₃,
      Option.bind_some]
  · have hy : (ts₂.set i (.request r₃) ++ [.execution y])[ts₂.length]? = some (.execution y) := by
      rw [List.getElem?_append_right (by simp), List.length_set, Nat.sub_self]
      rfl
    have hx₃ : (ts₂.set i (.request r₃) ++ [.execution y])[j]? = some (.execution x) :=
      Machine.getElem?_of_ne (Machine.getElem?_of_ne (Machine.getElem?_of_ne hx hji.ne) hji.ne)
        hji.ne
    rcases hall _ y _ hy rfl j x hji hx₃ hjob htask with hfin | hmem
    · exact hrun (Or.inl hfin)
    · rcases DefaultRequestHandler.mem_aborts_abortRunning.mp hmem with hentry | hmem
      · exact hother hentry
      · exact hrun (Or.inr hmem)

/-! ### A cancellation between a spawn and its registration -/

/-- A send whose execution has put the task to work. -/
def working : List (Label Thread Move) :=
  blockingSpawn ++
    .run 1 (.emit (.task ⟨"t1", "c1", ⟨.working, none, none⟩, [], [], none⟩)) ::
    List.replicate 2 (.run 0 (.tick ⟨"12:00", "u1", "u2", "v1"⟩))

/-- The cancellation of the task, up to the start of `executor.cancel`. -/
def cancelling : List (Label Thread Move) :=
  .arrive (.request ⟨.cancelTask ⟨none, "t1", none⟩, ∅, .received, []⟩) ::
    List.replicate 4 (.run 3 (.tick ⟨"12:01", "u3", "u4", "v1"⟩))

def unregisteredConfig : ServerConfig :=
  (server.exec ⟨.new, []⟩ (working ++ cancelling)).getD ⟨.new, []⟩

/-- The handle of execution `1` is not there yet when the cancellation looks for
it, so execution `4` cancels a task that still runs. -/
theorem unregisteredConfig_not_abortsEarlier :
    Initial ⟨.new, []⟩ ∧ server.Reach Machine.Always ⟨.new, []⟩ unregisteredConfig ∧
      ¬ AbortsEarlier unregisteredConfig := by
  have hreach : server.Reach Machine.Always ⟨.new, []⟩ unregisteredConfig :=
    .of_exec (show server.exec ⟨.new, []⟩ (working ++ cancelling) = some unregisteredConfig
      from rfl)
  refine ⟨initial_new, hreach, fun hall => ?_⟩
  have hstopped := hall 4 _ "t1" rfl rfl 1 _ (by decide) rfl rfl rfl
  rcases hstopped with hfin | hmem
  · cases hfin
  · exact absurd hmem (by decide)

/-- The same run, but with the handle among the running tasks in time. -/
def registering : List (Label Thread Move) :=
  working ++ .run 2 (.tick ⟨"12:00", "u1", "u2", "v1"⟩) :: cancelling

def registeredConfig : ServerConfig := (server.exec ⟨.new, []⟩ registering).getD ⟨.new, []⟩

/-- Only one of the steps takes a handle, the second of the cancellation. -/
theorem registering_keepsHandle : server.Along KeepsHandle ⟨.new, []⟩ registering := by
  refine ⟨trivial, ?_, ?_, ?_, ?_, ?_, trivial, ?_, ?_, ?_, trivial, ?_, ?abort, ?_, ?_, trivial⟩
  case abort =>
    intro r task params hr hpc hcall j x hj hx hjob htask
    cases hr
    rcases j with _ | _ | _ | j
    · cases hx
    · cases hcall
      exact Or.inr (by decide)
    · cases hx
    · omega
  all_goals
    intro r task params hr hpc
    cases hr
    try cases hpc

theorem abortsEarlier_reach_registering : AbortsEarlier registeredConfig :=
  abortsEarlier_reach initial_new (.of_along registering_keepsHandle rfl)

end Ra2a
