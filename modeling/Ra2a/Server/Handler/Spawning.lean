import Ra2a.Server.Handler.Aborting

/-!
# What is started, and for whom

A call of `on_message_send`, `on_message_stream` or `on_cancel_task` that is not
refused starts one execution, and no other step starts any.  `RunsFor c i j` says
that thread `j` runs for request `i`; `StartedThread` is the invariant, about each
thread what it starts or was started by, and `exactlyOnce_reach` what it comes to.
The handles among the running tasks are those of executions that `spawn_execution`
started, each under the id its context has, so what `on_cancel_task` aborts is
never the execution of a cancellation.
-/

namespace Ra2a

open Broadcast Interleave

variable {c : ServerConfig} {h' : DefaultRequestHandler} {new : List Thread} {i j k : ℕ} {m : Move}
  {t t' : Thread} {r r' : Request}

/-- Thread `j` is an execution that request `i` has started. -/
def RunsFor (c : ServerConfig) (i j : ℕ) : Prop :=
  ∃ x, executionAt c j = some x ∧ x.owner = i

/-- The job an execution has that this call starts. -/
def Call.job? : Call → Option Job
  | .messageSend _ | .messageStream _ => some .execute
  | .cancelTask params => some (.cancel params.id)
  | .subscribeToTask _ => none

/-- Whether the request has started an execution; where it was dropped does not
say. -/
def Request.started (r : Request) : Option Bool :=
  match r.pc with
  | .collecting _ _ _ | .returning _ _ _ | .done (.answered _ _) => some true
  | .streaming _ _ | .done .streamed => some r.call.job?.isSome
  | .dropped => none
  | _ => some false

/-- Request `i` has started one execution, or none, as its place says. -/
structure Owns (c : ServerConfig) (i : ℕ) (r : Request) : Prop where
  unique : ∀ j j', RunsFor c i j → RunsFor c i j' → j = j'
  one : r.started = some true → ∃ j, RunsFor c i j
  zero : r.started = some false → ∀ j, ¬ RunsFor c i j
  located : ∀ q, r.pc = .located q → r.call.job? = none

/-- The handle `j` under the id `k` is that of an execution of task `k`. -/
def Handles (c : ServerConfig) (k : TaskId) (j : ℕ) : Prop :=
  ∃ x, executionAt c j = some x ∧ x.job = .execute ∧ x.ctx.taskId = k

def StartedThread (c : ServerConfig) (i : ℕ) : Thread → Prop
  | .request r => Owns c i r
  | .execution x =>
    ∃ r, c.threads[x.owner]? = some (.request r) ∧ r.call.job? = some x.job
  | .registration g => i = g.execution + 1 ∧ Handles c g.taskId g.execution

theorem executionAt_of_getElem? {x : Execution} (h : c.threads[j]? = some (.execution x)) :
    executionAt c j = some x := by
  rw [executionAt, h]

/-! ### One step -/

/-- An execution goes on for the same request. -/
theorem RunsFor.step (h : RunsFor c k j) (ht : c.threads[i]? = some t)
    (ha : server.advance c.shared c.threads i m t = some (h', t', new)) :
    RunsFor ⟨h', c.threads.set i t' ++ new⟩ k j := by
  obtain ⟨x, hx, ho⟩ := h
  obtain ⟨x', hx', hs⟩ := execution_step ht ha (executionAt_eq_some hx)
  exact ⟨x', executionAt_of_getElem? hx', hs.owner.trans ho⟩

theorem Handles.step {key : TaskId} (h : Handles c key j) (ht : c.threads[i]? = some t)
    (ha : server.advance c.shared c.threads i m t = some (h', t', new)) :
    Handles ⟨h', c.threads.set i t' ++ new⟩ key j := by
  obtain ⟨x, hx, hjob, hid⟩ := h
  obtain ⟨x', hx', hs⟩ := execution_step ht ha (executionAt_eq_some hx)
  exact ⟨x', executionAt_of_getElem? hx', hs.job.trans hjob, by rw [hs.ctx, hid]⟩

/-- What a request spawns comes at the end of the threads: an execution of its
own, for its call, and for a send the registration after it. -/
theorem Request.Step.launches (hs : r.Step c.shared c.threads i h' r' new) :
    new = [] ∨ ∃ x, x.owner = i ∧ r.call.job? = some x.job ∧ r.started = some false ∧
      r'.started = some true ∧
      (new = [.execution x] ∨ x.job = .execute ∧
        new = [.execution x, .registration ⟨x.ctx.taskId, c.threads.length, false⟩]) := by
  cases hs with
  | spawnSend params key ctx q pos hpc hcall =>
    refine Or.inr ⟨_, rfl, by rw [hcall]; rfl, ?_, rfl, Or.inr ⟨rfl, rfl⟩⟩
    rw [Request.started, hpc]
  | spawnStream params key ctx q hpc hcall =>
    refine Or.inr ⟨_, rfl, by rw [hcall]; rfl, ?_, ?_, Or.inr ⟨rfl, rfl⟩⟩
    · rw [Request.started, hpc]
    · simp [Request.started, hcall, Call.job?]
  | spawnCancel params key ctx q pos hpc hcall =>
    refine Or.inr ⟨_, rfl, by rw [hcall]; rfl, ?_, rfl, Or.inl rfl⟩
    rw [Request.started, hpc]
  | _ => exact Or.inl rfl

/-- A step that spawns nothing leaves a request that has started something, or
has not, where that is so. -/
theorem Request.Step.started (hs : r.Step c.shared c.threads i h' r' [])
    (hlocated : ∀ q, r.pc = .located q → r.call.job? = none) :
    r'.started = none ∨ r'.started = r.started := by
  cases hs with
  | drop => exact Or.inl rfl
  | refuse e hpc =>
    right
    rcases hpc with hpc | ⟨_, _, _, hpc⟩ | hpc <;> simp [Request.started, hpc]
  | subscribe q hpc =>
    right
    simp [Request.started, hpc, hlocated q hpc]
  | _ =>
    right
    simp only [Request.started, Request.goto_pc, Request.goto_call, *]

/-- **Who runs after a step** ran before, or is what the moving request has
started. -/
theorem runsFor_cases (ht : c.threads[i]? = some t)
    (ha : server.advance c.shared c.threads i m t = some (h', t', new))
    (h : RunsFor ⟨h', c.threads.set i t' ++ new⟩ k j) :
    RunsFor c k j ∨ k = i ∧ j = c.threads.length ∧ new ≠ [] := by
  obtain ⟨x', hx', rfl⟩ := h
  rcases Machine.getElem?_moved (executionAt_eq_some hx') with ⟨rfl, rfl⟩ | ⟨-, hj⟩ | ⟨hlen, hj⟩
  · rcases cases_of_step ha with ⟨_, _, -, he, -⟩ | ⟨x, y, rfl, he, -, hs⟩ | ⟨_, -, -, he, -⟩
    · cases he
    · cases he
      exact Or.inl ⟨x, executionAt_of_getElem? ht, hs.same.owner.symm⟩
    · cases he
  · exact Or.inl ⟨x', executionAt_of_getElem? hj, rfl⟩
  · right
    rcases cases_of_step ha with ⟨r, r', rfl, rfl, hs, -⟩ | ⟨_, _, -, -, rfl, -⟩ |
      ⟨_, -, -, -, rfl, -⟩
    · rcases hs.launches with rfl | ⟨x, ho, -, -, -, hnew⟩
      · cases hj
      · have hzero : j - c.threads.length = 0 ∧ x' = x := by
          generalize j - c.threads.length = n at hj
          rcases hnew with rfl | ⟨-, rfl⟩
          · match n, hj with
            | 0, rfl => exact ⟨rfl, rfl⟩
          · match n, hj with
            | 0, rfl => exact ⟨rfl, rfl⟩
            | 1, he => cases he
        refine ⟨by rw [hzero.2, ho], by omega, ?_⟩
        rcases hnew with rfl | ⟨-, rfl⟩ <;> exact List.cons_ne_nil _ _
    · cases hj
    · cases hj

theorem runsFor_arrive (hf : t.isFresh = true) :
    RunsFor ⟨c.shared, c.threads ++ [t]⟩ k j ↔ RunsFor c k j := by
  constructor
  · rintro ⟨x, hx, ho⟩
    rcases Places.getElem?_concat_cases (executionAt_eq_some hx) with hj | ⟨-, rfl⟩
    · exact ⟨x, executionAt_of_getElem? hj, ho⟩
    · obtain ⟨_, he, -⟩ := Thread.of_isFresh hf
      cases he
  · rintro ⟨x, hx, ho⟩
    exact ⟨x, executionAt_of_getElem? (Places.getElem?_append_of_some (executionAt_eq_some hx)), ho⟩

/-! ### The invariant -/

/-- Requests only move on in their own steps. -/
theorem Owns.of_runsFor {c' : ServerConfig} (h : Owns c k r)
    (hiff : ∀ j, RunsFor c' k j ↔ RunsFor c k j) : Owns c' k r where
  unique j j' hj hj' := h.unique j j' ((hiff j).mp hj) ((hiff j').mp hj')
  one hs := by
    obtain ⟨j, hj⟩ := h.one hs
    exact ⟨j, (hiff j).mpr hj⟩
  zero hs j hj := h.zero hs j ((hiff j).mp hj)
  located := h.located

/-- A request is at `located` only if it subscribes. -/
theorem Request.Step.located (hs : r.Step c.shared c.threads i h' r' new) (q : ℕ)
    (hpc : r'.pc = .located q) : r'.call.job? = none := by
  cases hs with
  | find params p hpc' hcall => rw [Request.goto_call, hcall]; rfl
  | _ => cases hpc

/-- The step of a request that starts nothing. -/
theorem Owns.step (h : Owns c i r) (hs : r.Step c.shared c.threads i h' r' []) {c' : ServerConfig}
    (hiff : ∀ j, RunsFor c' i j ↔ RunsFor c i j) : Owns c' i r' where
  unique := (h.of_runsFor hiff).unique
  one hst := by
    rcases hs.started h.located with hn | he
    · rw [hn] at hst
      cases hst
    · exact (h.of_runsFor hiff).one (he ▸ hst)
  zero hst := by
    rcases hs.started h.located with hn | he
    · rw [hn] at hst
      cases hst
    · exact (h.of_runsFor hiff).zero (he ▸ hst)
  located := hs.located

/-- A request goes on with the same call. -/
theorem request_step (ht : c.threads[i]? = some t)
    (ha : server.advance c.shared c.threads i m t = some (h', t', new))
    (hr : c.threads[j]? = some (.request r)) :
    ∃ r', (c.threads.set i t' ++ new)[j]? = some (.request r') ∧ r'.call = r.call := by
  by_cases hji : j = i
  · subst hji
    rw [ht] at hr
    cases hr
    rcases cases_of_step ha with ⟨r₁, r', he, rfl, hs, -⟩ | ⟨_, _, he, -⟩ | ⟨_, he, -⟩
    · cases he
      exact ⟨r', Machine.getElem?_self ht, hs.call⟩
    · cases he
    · cases he
  · exact ⟨r, Machine.getElem?_of_ne hr hji, rfl⟩

/-- Nobody starts anything for request `k` while others move. -/
theorem runsFor_iff_of_ne (ht : c.threads[i]? = some t)
    (ha : server.advance c.shared c.threads i m t = some (h', t', new)) (hki : k ≠ i) :
    RunsFor ⟨h', c.threads.set i t' ++ new⟩ k j ↔ RunsFor c k j := by
  constructor
  · intro h
    rcases runsFor_cases ht ha h with h | ⟨he, -⟩
    · exact h
    · exact absurd he hki
  · exact fun h => h.step ht ha

/-- The others keep what they have. -/
theorem StartedThread.other {u : Thread} (h : StartedThread c j u) (ht : c.threads[i]? = some t)
    (ha : server.advance c.shared c.threads i m t = some (h', t', new)) (hji : j ≠ i) :
    StartedThread ⟨h', c.threads.set i t' ++ new⟩ j u := by
  cases u with
  | request r => exact Owns.of_runsFor h fun _ => runsFor_iff_of_ne ht ha hji
  | execution x =>
    obtain ⟨r, hr, hjob⟩ := h
    obtain ⟨r', hr', hcall⟩ := request_step ht ha hr
    exact ⟨r', hr', by rw [hcall, hjob]⟩
  | registration g => exact ⟨h.1, h.2.step ht ha⟩

theorem StartedThread.arrive {u : Thread} (h : StartedThread c j u) (hf : t.isFresh = true) :
    StartedThread ⟨c.shared, c.threads ++ [t]⟩ j u := by
  cases u with
  | request r => exact Owns.of_runsFor h fun _ => runsFor_arrive hf
  | execution x =>
    obtain ⟨r, hr, hjob⟩ := h
    exact ⟨r, Places.getElem?_append_of_some hr, hjob⟩
  | registration g =>
    obtain ⟨hi, x, hx, hjob, hid⟩ := h
    exact ⟨hi, x, executionAt_of_getElem?
      (Places.getElem?_append_of_some (executionAt_eq_some hx)), hjob, hid⟩

/-- A call that has just arrived has started nothing. -/
theorem owns_fresh (hA : Machine.Reach.Each StartedThread c) (hf : t.isFresh = true)
    (hpc : r.pc = .received) : Owns ⟨c.shared, c.threads ++ [t]⟩ c.threads.length r := by
  have hno : ∀ j, ¬ RunsFor ⟨c.shared, c.threads ++ [t]⟩ c.threads.length j := by
    intro j hj
    obtain ⟨x, hx, ho⟩ := (runsFor_arrive hf).mp hj
    obtain ⟨r, hr, -⟩ := hA j _ (executionAt_eq_some hx)
    rw [ho, List.getElem?_eq_none le_rfl] at hr
    cases hr
  refine ⟨fun j j' hj => absurd hj (hno j), fun hs => ?_, fun _ => hno, fun q hq => ?_⟩
  · rw [Request.started, hpc] at hs
    cases hs
  · rw [hpc] at hq
    cases hq

/-- What a request has started is its one execution. -/
theorem Owns.start (h : Owns c i r) (ht : c.threads[i]? = some t)
    (ha : server.advance c.shared c.threads i m t = some (h', t', new))
    (hs : r.Step c.shared c.threads i h' r' new) {x : Execution} {rest : List Thread}
    (hnew : new = .execution x :: rest) (ho : x.owner = i) (hbefore : r.started = some false)
    (hafter : r'.started = some true) : Owns ⟨h', c.threads.set i t' ++ new⟩ i r' where
  unique j j' hj hj' := by
    rcases runsFor_cases ht ha hj with hj | ⟨-, hj, -⟩
    · exact absurd hj (h.zero hbefore j)
    · rcases runsFor_cases ht ha hj' with hj' | ⟨-, hj', -⟩
      · exact absurd hj' (h.zero hbefore j')
      · rw [hj, hj']
  one _ := by
    refine ⟨c.threads.length, x, executionAt_of_getElem? ?_, ho⟩
    rw [hnew, List.getElem?_append_right (by simp)]
    simp
  zero hs := by
    rw [hafter] at hs
    cases hs
  located := hs.located

/-- **The invariant holds along every run.** -/
theorem started_reach {ok : ServerConfig → Label Thread Move → Prop} {c₀ c : ServerConfig}
    (h₀ : Initial c₀) (h : server.Reach ok c₀ c) : Machine.Reach.Each StartedThread c := by
  refine h.threads h₀.each ?_ ?_ ?_ ?_
  · intro c t hA hok hf j u hu
    rcases Places.getElem?_concat_cases hu with hu | ⟨rfl, rfl⟩
    · exact (hA j u hu).arrive hf
    · obtain ⟨r, rfl, hpc, -⟩ := Thread.of_isFresh hf
      exact owns_fresh hA hf hpc
  · intro c i m t h' t' new hA hok ht ha
    rcases cases_of_step ha with ⟨r, r', rfl, rfl, hs, -⟩ | ⟨x, x', rfl, rfl, rfl, hs⟩ |
      ⟨g, rfl, -, rfl, rfl, rfl⟩
    · rcases hs.launches with rfl | ⟨x, ho, -, hbefore, hafter, hnew⟩
      · refine Owns.step (hA i _ ht) hs fun j => ⟨fun hj => ?_, fun hj => hj.step ht ha⟩
        rcases runsFor_cases ht ha hj with hj | ⟨-, -, hne⟩
        · exact hj
        · exact absurd rfl hne
      · rcases hnew with hnew | ⟨-, hnew⟩
        · exact Owns.start (hA i _ ht) ht ha hs hnew ho hbefore hafter
        · exact Owns.start (hA i _ ht) ht ha hs hnew ho hbefore hafter
    · obtain ⟨r, hr, hjob⟩ := hA i _ ht
      obtain ⟨r', hr', hcall⟩ := request_step ht ha hr
      exact ⟨r', by rw [hs.same.owner, hr'], by rw [hcall, hjob, hs.same.job]⟩
    · exact ⟨(hA i _ ht).1, (hA i _ ht).2.step ht ha⟩
  · intro c i m t h' t' new j u hA hok ht ha hlen hu
    rcases cases_of_step ha with ⟨r, r', rfl, rfl, hs, -⟩ | ⟨_, _, -, -, rfl, -⟩ |
      ⟨_, -, -, -, rfl, -⟩
    · obtain ⟨r₁, hr₁, hcall⟩ := request_step ht ha ht
      rcases hs.launches with rfl | ⟨x, ho, hjob, -, -, hnew⟩
      · cases hu
      · have hx : StartedThread ⟨h', c.threads.set i (.request r') ++ new⟩ j (.execution x) :=
          ⟨r₁, by rw [ho, hr₁], by rw [hcall, hjob]⟩
        generalize hn : j - c.threads.length = n at hu
        rcases hnew with rfl | ⟨hexec, rfl⟩
        · match n, hu with
          | 0, rfl => exact hx
        · match n, hu with
          | 0, rfl => exact hx
          | 1, rfl =>
            refine ⟨by dsimp only; omega, x, executionAt_of_getElem? ?_, hexec, rfl⟩
            rw [List.getElem?_append_right (by simp)]
            simp
    · cases hu
    · cases hu
  · intro c i m t h' t' new j u hA hok ht ha hij hu
    exact (hA j u hu).other ht ha hij

/-! ### Handles -/

/-- The handles kept, and those told to abort, are of executions that
`spawn_execution` started. -/
structure HandlesKnown (c : ServerConfig) : Prop where
  running : ∀ k j, c.shared.runningTasks.lookup k = some j → Handles c k j
  aborts : ∀ j ∈ c.shared.aborts, ∃ k, Handles c k j
  aborted : ∀ j x, executionAt c j = some x → x.pc = .finished .aborted → j ∈ c.shared.aborts

/-- What aborting leaves of the handles. -/
theorem DefaultRequestHandler.handles_abortRunning (h : DefaultRequestHandler) (taskId : TaskId) :
    (∀ k j, (h.abortRunning taskId).runningTasks.lookup k = some j →
        h.runningTasks.lookup k = some j) ∧
      (∀ j ∈ (h.abortRunning taskId).aborts,
        j ∈ h.aborts ∨ h.runningTasks.lookup taskId = some j) ∧
      ∀ j ∈ h.aborts, j ∈ (h.abortRunning taskId).aborts := by
  rw [abortRunning]
  cases hl : h.runningTasks.lookup taskId with
  | none => exact ⟨fun _ _ hk => hk, fun _ hj => Or.inl hj, fun _ hj => hj⟩
  | some handle =>
    refine ⟨fun k j hk => ?_, fun j hj => ?_, fun j hj => List.mem_cons_of_mem _ hj⟩
    · by_cases hne : k = taskId
      · subst hne
        rw [Finmap.lookup_erase] at hk
        cases hk
      · rwa [Finmap.lookup_erase_ne hne] at hk
    · rcases List.mem_cons.mp hj with rfl | hj
      · exact Or.inr rfl
      · exact Or.inl hj

/-- A request leaves the handles alone, or aborts one. -/
theorem Request.Step.handles (hs : r.Step c.shared c.threads i h' r' new) :
    (h'.runningTasks = c.shared.runningTasks ∧ h'.aborts = c.shared.aborts) ∨
      ∃ k, h' = c.shared.abortRunning k := by
  cases hs with
  | abort params task hpc hcall => exact Or.inr ⟨params.id, rfl⟩
  | configure params ctx tick hpc hcall =>
    obtain ⟨_, he⟩ := c.shared.saveInlinePushConfig_eq params ctx.taskId tick
    rw [he]
    exact Or.inl ⟨rfl, rfl⟩
  | _ => exact Or.inl ⟨rfl, rfl⟩

/-- One step: what is kept as a handle was kept, or is the one a registration has. -/
theorem handles_step (ha : server.advance c.shared c.threads i m t = some (h', t', new)) :
    (∀ k j, h'.runningTasks.lookup k = some j → c.shared.runningTasks.lookup k = some j ∨
        ∃ g, t = .registration g ∧ g.taskId = k ∧ g.execution = j) ∧
      (∀ j ∈ h'.aborts, j ∈ c.shared.aborts ∨ ∃ k, c.shared.runningTasks.lookup k = some j) ∧
      ∀ j ∈ c.shared.aborts, j ∈ h'.aborts := by
  rcases cases_of_step ha with ⟨r, r', rfl, rfl, hs, -⟩ | ⟨x, x', rfl, rfl, rfl, hs⟩ |
    ⟨g, rfl, -, rfl, rfl, rfl⟩
  · rcases hs.handles with ⟨hrun, habort⟩ | ⟨k, rfl⟩
    · rw [hrun, habort]
      exact ⟨fun _ _ hk => Or.inl hk, fun _ hj => Or.inl hj, fun _ hj => hj⟩
    · obtain ⟨h₁, h₂, h₃⟩ := c.shared.handles_abortRunning k
      refine ⟨fun k j hk => Or.inl (h₁ k j hk), fun j hj => ?_, h₃⟩
      rcases h₂ j hj with hj | hj
      · exact Or.inl hj
      · exact Or.inr ⟨k, hj⟩
  · have he : h'.runningTasks = c.shared.runningTasks ∧ h'.aborts = c.shared.aborts := by
      cases hs <;> exact ⟨rfl, rfl⟩
    rw [he.1, he.2]
    exact ⟨fun _ _ hk => Or.inl hk, fun _ hj => Or.inl hj, fun _ hj => hj⟩
  · refine ⟨fun k j hk => ?_, fun _ hj => Or.inl hj, fun _ hj => hj⟩
    by_cases hne : k = g.taskId
    · subst hne
      dsimp only at hk
      rw [Finmap.lookup_insert] at hk
      exact Or.inr ⟨g, rfl, rfl, Option.some.inj hk⟩
    · dsimp only at hk
      rw [Finmap.lookup_insert_of_ne _ hne] at hk
      exact Or.inl hk

/-- An execution that is aborted by a step was told to. -/
theorem aborted_step (ht : c.threads[i]? = some t)
    (ha : server.advance c.shared c.threads i m t = some (h', t', new)) {x' : Execution}
    (hx' : (c.threads.set i t' ++ new)[j]? = some (.execution x'))
    (hpc : x'.pc = .finished .aborted) :
    j ∈ c.shared.aborts ∨ ∃ x, executionAt c j = some x ∧ x.pc = .finished .aborted := by
  rcases Machine.getElem?_moved hx' with ⟨rfl, rfl⟩ | ⟨-, hj⟩ | ⟨-, hj⟩
  · rcases cases_of_step ha with ⟨_, _, -, he, -⟩ | ⟨x, y, rfl, he, -, hs⟩ | ⟨_, -, -, he, -⟩
    · cases he
    · cases he
      cases hs with
      | abort hmem _ => exact Or.inl hmem
      | emit e hrun =>
        rw [hrun] at hpc
        cases hpc
      | _ => cases hpc
    · cases he
  · exact Or.inr ⟨x', executionAt_of_getElem? hj, hpc⟩
  · rcases spawned_step ha (List.mem_of_getElem? hj) with ⟨_, x, -, he, hrun, -⟩ | ⟨_, he⟩
    · cases he
      rw [hrun] at hpc
      cases hpc
    · cases he

/-- **The handles along every run.** -/
theorem handlesKnown_reach {ok : ServerConfig → Label Thread Move → Prop} {c₀ c : ServerConfig}
    (h₀ : Initial c₀) (h : server.Reach ok c₀ c) : HandlesKnown c := by
  refine (h.assuming fun _ => started_reach h₀).invariant ⟨?_, ?_, ?_⟩ ?_
  · intro k j hk
    rw [h₀.running, Finmap.lookup_empty] at hk
    cases hk
  · intro j hj
    rw [h₀.aborts] at hj
    cases hj
  · intro j x hx
    have hj := executionAt_eq_some hx
    rw [h₀.threads] at hj
    cases hj
  · rintro c l c' ⟨hrun, habort, hended⟩ ⟨hst, -⟩ hs
    rcases Machine.step_cases hs with ⟨t, rfl, hf, rfl⟩ | ⟨i, m, t, h', t', new, rfl, ht, ha, rfl⟩
    · have hkeep : ∀ {k j}, Handles c k j → Handles ⟨c.shared, c.threads ++ [t]⟩ k j := by
        rintro k j ⟨x, hx, hjob⟩
        exact ⟨x, executionAt_of_getElem?
          (Places.getElem?_append_of_some (executionAt_eq_some hx)), hjob⟩
      refine ⟨fun k j hk => hkeep (hrun k j hk), fun j hj => ?_, fun j x hx hpc => ?_⟩
      · obtain ⟨k, hk⟩ := habort j hj
        exact ⟨k, hkeep hk⟩
      · obtain ⟨y, hy, ho⟩ := (runsFor_arrive hf).mp ⟨x, hx, rfl⟩
        have hj : (c.threads ++ [t])[j]? = some (.execution y) :=
          Places.getElem?_append_of_some (executionAt_eq_some hy)
        rw [executionAt_eq_some hx] at hj
        cases hj
        exact hended j x hy hpc
    · obtain ⟨hrun', habort', hmono⟩ := handles_step ha
      refine ⟨fun k j hk => ?_, fun j hj => ?_, fun j x hx hpc => ?_⟩
      · rcases hrun' k j hk with hk | ⟨g, rfl, rfl, rfl⟩
        · exact (hrun k j hk).step ht ha
        · exact (hst i _ ht).2.step ht ha
      · rcases habort' j hj with hj | ⟨k, hk⟩
        · obtain ⟨k, hk⟩ := habort j hj
          exact ⟨k, hk.step ht ha⟩
        · exact ⟨k, (hrun k j hk).step ht ha⟩
      · rcases aborted_step ht ha (executionAt_eq_some hx) hpc with hj | ⟨y, hy, hpc⟩
        · exact hmono j hj
        · exact hmono j (hended j y hy hpc)

/-! ### Every run -/

/-- Every accepted call runs once, and nothing runs that no call has asked for. -/
structure ExactlyOnce (c : ServerConfig) : Prop where
  caller : ∀ j x, executionAt c j = some x →
    ∃ r, c.threads[x.owner]? = some (.request r) ∧ r.call.job? = some x.job
  unique : ∀ i j j', RunsFor c i j → RunsFor c i j' → j = j'
  accepted : ∀ i r, c.threads[i]? = some (.request r) → r.started = some true →
    ∃ j, RunsFor c i j
  refused : ∀ i r, c.threads[i]? = some (.request r) → r.started = some false →
    ∀ j, ¬ RunsFor c i j
  running : ∀ k j, c.shared.runningTasks.lookup k = some j → Handles c k j
  aborted : ∀ j x, executionAt c j = some x → x.pc = .finished .aborted → x.job = .execute

/-- **Every accepted call starts one execution**, whatever the interleaving; a
call that is refused or subscribes starts none, and what is aborted is never the
execution of a cancellation. -/
theorem exactlyOnce_reach {c₀ c : ServerConfig} (h₀ : Initial c₀)
    (h : server.Reach Machine.Always c₀ c) : ExactlyOnce c := by
  have hst := started_reach h₀ h
  have hhandles := handlesKnown_reach h₀ h
  refine ⟨fun j x hx => hst j _ (executionAt_eq_some hx), ?_, fun i r hr => (hst i _ hr).one,
    fun i r hr => (hst i _ hr).zero, hhandles.running, fun j x hx hpc => ?_⟩
  · intro i j j' hj hj'
    obtain ⟨x, hx, ho⟩ := hj
    obtain ⟨r, hr, -⟩ := hst j _ (executionAt_eq_some hx)
    rw [ho] at hr
    exact Owns.unique (hst i _ hr) j j' ⟨x, hx, ho⟩ hj'
  · obtain ⟨k, y, hy, hjob, -⟩ := hhandles.aborts j (hhandles.aborted j x hx hpc)
    rw [hx] at hy
    cases hy
    exact hjob

/-- A send, and a cancellation that aborts its execution. -/
def abortedConfig : ServerConfig :=
  (server.exec ⟨.new, []⟩ (registering ++ [.run 1 .abort])).getD ⟨.new, []⟩

theorem exactlyOnce_reach_aborted : ExactlyOnce abortedConfig :=
  exactlyOnce_reach initial_new (.of_exec
    (show server.exec ⟨.new, []⟩ (registering ++ [.run 1 .abort]) = some abortedConfig from rfl))

end Ra2a
